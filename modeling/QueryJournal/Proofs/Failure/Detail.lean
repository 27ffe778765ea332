import QueryJournal.Failure.Object
import QueryJournal.Proofs.Results

/-!
# The detail of an error

The detail of an error is the last one that was contributed: by name, or as the
first text among the arguments.  An initialisation that contributes none keeps
the detail, and if none ever did, it is the one of the class.  The further texts
on the other hand are always those of the last initialisation.  An argument
without a text makes an initialisation fail before it has written anything.
-/

namespace QueryJournal

/-- Whether errors of a kind are initialised as those of the base class are,
from any values and a detail.  Such a kind extends the base by its name, and
perhaps by a detail of its own. -/
def JournalKind.IsPlain (kind : JournalKind) : Prop :=
  kind.cls = .base ∨ kind.cls = .serialization

namespace JournalError

variable {kind : JournalKind} {e : JournalError} {o : Object}
  {a first : Arguments}
variable {more : List Arguments} {previous : String} {values : List Value}

/-! ## Texts of arguments -/

/-- Whether all of some values that count as something have a text. -/
def ArePrintable (values : List Value) : Prop :=
  ∀ v ∈ values, v.isTruthy = true → ∃ s, v.plain = .ok s

/-- The texts of the values that count as something, in order. -/
def shown (values : List Value) : List String :=
  (values.filter Value.isTruthy).filterMap fun v => v.plain.toOption

theorem texts_of_arePrintable (h : ArePrintable values) :
    texts values = .ok (shown values) := by
  induction values with
  | nil => rfl
  | cons v values ih =>
    obtain ⟨hfirst, hrest⟩ := List.forall_mem_cons.mp h
    rw [texts, ih hrest]
    by_cases hv : v.isTruthy = true
    · obtain ⟨s, hs⟩ := hfirst hv
      have hshown : shown (v :: values) = s :: shown values := by
        rw [shown, List.filter_cons_of_pos hv, List.filterMap_cons, hs]
        rfl
      rw [if_pos hv, hs, hshown]
      rfl
    · rw [if_neg hv, shown, shown, List.filter_cons_of_neg hv]

theorem shown_ne_nil_iff (h : ArePrintable values) :
    shown values ≠ [] ↔ ∃ v ∈ values, v.isTruthy = true := by
  constructor
  · intro hne
    obtain ⟨s, hs⟩ := List.exists_mem_of_ne_nil _ hne
    obtain ⟨v, hv, -⟩ := List.mem_filterMap.mp hs
    obtain ⟨hmem, htruthy⟩ := List.mem_filter.mp hv
    exact ⟨v, hmem, htruthy⟩
  · rintro ⟨v, hmem, htruthy⟩
    obtain ⟨s, hs⟩ := h v hmem htruthy
    have hshown : s ∈ shown values := by
      refine List.mem_filterMap.mpr ⟨v, List.mem_filter.mpr ⟨hmem, htruthy⟩, ?_⟩
      rw [hs]
      rfl
    exact List.ne_nil_of_mem hshown

/-- The first value without a text makes the texts fail. -/
theorem texts_of_unprintable
    {before after : List Value} {v : Value} {u : Unprintable}
    (hbefore : ArePrintable before)
    (hv : v.isTruthy = true) (hu : v.plain = .error u) :
    texts (before ++ v :: after) = .error u := by
  induction before with
  | nil =>
    rw [List.nil_append, texts, if_pos hv, hu]
    rfl
  | cons w before ih =>
    obtain ⟨hfirst, hrest⟩ := List.forall_mem_cons.mp hbefore
    rw [List.cons_append, texts, ih hrest]
    split
    next hw =>
      obtain ⟨s, hs⟩ := hfirst hw
      rw [hs]
      rfl
    next => rfl

namespace Arguments

/-- The detail that is named, possibly nothing. -/
def named (a : Arguments) : String :=
  a.detail.getD ""

/-- The detail that arguments contribute: the one that they name, or else the
text of the first value that counts as something. -/
def contribution? (a : Arguments) : Option String :=
  if a.named ≠ "" then some a.named else (shown a.values).head?

/-- The texts besides the detail that arguments contribute. -/
def further (a : Arguments) : List String :=
  if a.named ≠ "" then shown a.values else (shown a.values).tail

/-- What errors of a plain kind are made from: values with texts, and no
setting. -/
structure IsPlain (a : Arguments) : Prop where
  setting : a.setting = none
  printable : ArePrintable a.values

theorem settle_eq (previous : String) (a : Arguments) :
    settle previous a.named (shown a.values) =
      (a.contribution?.getD previous, a.further) := by
  unfold settle contribution? further
  split
  next => rfl
  next =>
    cases shown a.values with
    | nil => rfl
    | cons s rest => rfl

theorem IsPlain.isSome_contribution?_iff (h : a.IsPlain) :
    a.contribution?.isSome = true ↔
      a.named ≠ "" ∨ ∃ v ∈ a.values, v.isTruthy = true := by
  unfold contribution?
  split
  next hnamed => exact iff_of_true rfl (.inl hnamed)
  next hnamed =>
    rw [or_iff_right hnamed, List.isSome_head?, shown_ne_nil_iff h.printable]

end Arguments

/-! ## One initialisation -/

/-- An error of a plain kind is made as soon as its arguments have texts. -/
theorem initialise_eq_map
    (hkind : kind.IsPlain) (previous : String) (hsetting : a.setting = none) :
    initialise kind previous a =
      ((texts a.values).mapError Unprintable.toFailure).map fun items =>
        ⟨kind, (settle previous a.named items).1,
          (settle previous a.named items).2, none⟩ := by
  have haccept : accept? kind.cls a = some (a.values, none) := by
    rcases hkind with hcls | hcls
    · rw [hcls, accept?, hsetting]
      rfl
    · rw [hcls, accept?, hsetting]
      rfl
  rw [initialise, haccept]
  rfl

theorem initialise_of_isPlain
    (hkind : kind.IsPlain) (previous : String) (ha : a.IsPlain) :
    initialise kind previous a =
      .ok ⟨kind, a.contribution?.getD previous, a.further, none⟩ := by
  rw [initialise_eq_map hkind previous ha.setting,
    texts_of_arePrintable ha.printable]
  exact congrArg (fun settled =>
    Except.ok (JournalError.mk kind settled.1 settled.2 none))
    (Arguments.settle_eq previous a)

theorem initialise_of_unprintable
    (hkind : kind.IsPlain) (previous : String) (hsetting : a.setting = none)
    {before after : List Value} {v : Value} {u : Unprintable}
    (hvalues : a.values = before ++ v :: after) (hbefore : ArePrintable before)
    (hv : v.isTruthy = true) (hu : v.plain = .error u) :
    initialise kind previous a = .error u.toFailure := by
  rw [initialise_eq_map hkind previous hsetting, hvalues,
    texts_of_unprintable hbefore hv hu]
  rfl

/-- Whether an initialisation succeeds does not depend on the detail before
it. -/
theorem isOk_initialise (kind : JournalKind) (previous other : String)
    (a : Arguments) :
    (initialise kind previous a).isOk = (initialise kind other a).isOk := by
  unfold initialise
  cases accept? kind.cls a with
  | none => rfl
  | some accepted =>
    dsimp only
    cases texts accepted.1 with
    | error u => rfl
    | ok items => rfl

theorem kind_of_initialise (h : initialise kind previous a = .ok e) :
    e.kind = kind := by
  unfold initialise at h
  cases haccept : accept? kind.cls a with
  | none =>
    rw [haccept] at h
    cases h
  | some accepted =>
    rw [haccept] at h
    obtain ⟨items, -, hmade⟩ := exists_of_bind_eq_ok h
    cases hmade
    rfl

namespace Object

/-- An initialisation writes all parts of the error that it makes, or
nothing. -/
theorem initialise_eq (o : Object) (a : Arguments) :
    o.initialise a =
      match JournalError.initialise o.kind o.detail a with
      | .ok e => ⟨[.detail e.detail, .args e.args, .setting e.setting], .ok ()⟩
      | .error f => .fail f := by
  unfold initialise JournalError.initialise
  cases accept? o.kind.cls a with
  | none => rfl
  | some accepted =>
    obtain ⟨values, setting⟩ := accepted
    dsimp only
    cases texts values with
    | error u => rfl
    | ok items => rfl

theorem initialised_of_ok
    (h : JournalError.initialise o.kind o.detail a = .ok e) :
    o.initialised a = ofError e := by
  rw [initialised, initialise_eq, h, ofError, kind_of_initialise h]
  rfl

theorem initialise_of_error
    {f : Failure} (h : JournalError.initialise o.kind o.detail a = .error f) :
    o.initialise a = .fail f := by
  rw [initialise_eq, h]

/-- An initialisation that fails leaves the object as it is. -/
theorem initialised_eq_self_of_error
    {f : Failure} (h : JournalError.initialise o.kind o.detail a = .error f) :
    o.initialised a = o := by
  rw [initialised, initialise_of_error h]
  rfl

theorem kind_initialised (o : Object) (a : Arguments) :
    (o.initialised a).kind = o.kind := by
  cases h : JournalError.initialise o.kind o.detail a with
  | ok e =>
    rw [initialised_of_ok h]
    exact kind_of_initialise h
  | error f => rw [initialised_eq_self_of_error h]

end Object

/-! ## Many initialisations -/

/-- The detail after some initialisations of an error whose detail was
`previous` before: the one that was contributed last. -/
def lastDetail (previous : String) (calls : List Arguments) : String :=
  (calls.filterMap Arguments.contribution?).getLast?.getD previous

theorem lastDetail_cons (previous : String) (a : Arguments)
    (calls : List Arguments) :
    lastDetail previous (a :: calls) =
      lastDetail (a.contribution?.getD previous) calls := by
  unfold lastDetail
  rw [List.filterMap_cons]
  cases a.contribution? with
  | none => rfl
  | some s =>
    dsimp only
    rw [List.getLast?_cons]
    rfl

/-- The error that is made first and initialised some more times then, if each
time succeeds. -/
def makeThenAgain
    (kind : JournalKind) (first : Arguments) (more : List Arguments) :
    Except Failure JournalError :=
  (make kind first).bind fun e => more.foldlM again e

theorem foldlM_again_of_isPlain
    (hkind : kind.IsPlain) (previous : String) (first : Arguments)
    (hmore : ∀ a ∈ more, a.IsPlain) :
    more.foldlM again
        ⟨kind, first.contribution?.getD previous, first.further, none⟩ =
      .ok ⟨kind, lastDetail previous (first :: more),
        (more.getLastD first).further, none⟩ := by
  induction more generalizing previous first with
  | nil =>
    rw [lastDetail_cons]
    rfl
  | cons a more ih =>
    obtain ⟨ha, hrest⟩ := List.forall_mem_cons.mp hmore
    -- What the first call contributed, if anything, is what the others fall
    -- back on.
    rw [List.foldlM_cons, again, initialise_of_isPlain hkind _ ha,
      List.getLastD_cons, lastDetail_cons, ← ih _ _ hrest]
    rfl

namespace Object

/-- The object after some initialisations, of which some may have failed. -/
def initialisedAll (o : Object) (calls : List Arguments) : Object :=
  calls.foldl initialised o

/-- Initialisations that fail make no difference. -/
theorem initialisedAll_filter (o : Object) (calls : List Arguments) :
    o.initialisedAll calls =
      o.initialisedAll (calls.filter fun a => (make o.kind a).isOk) := by
  induction calls generalizing o with
  | nil => rfl
  | cons a calls ih =>
    have hsame : (make o.kind a).isOk =
        (JournalError.initialise o.kind o.detail a).isOk :=
      isOk_initialise o.kind _ _ a
    have hrest := ih (o.initialised a)
    -- What succeeds depends on the kind only, which the first call does not
    -- change.
    rw [kind_initialised] at hrest
    rw [initialisedAll, List.foldl_cons, ← initialisedAll, hrest,
      List.filter_cons, hsame]
    cases h : JournalError.initialise o.kind o.detail a with
    | ok e => rfl
    | error f =>
      rw [initialised_eq_self_of_error h]
      rfl

theorem initialisedAll_of_ok {e' : JournalError}
    (h : more.foldlM again e = .ok e') :
    (ofError e).initialisedAll more = ofError e' := by
  induction more generalizing e with
  | nil =>
    cases h
    rfl
  | cons a more ih =>
    rw [List.foldlM_cons] at h
    obtain ⟨next, hnext, hrest⟩ := exists_of_bind_eq_ok h
    have hfirst : (ofError e).initialised a = ofError next :=
      initialised_of_ok hnext
    rw [initialisedAll, List.foldl_cons, hfirst]
    exact ih hrest

end Object

/-- Errors of a kind without an initialisation of its own have the detail that
was contributed last, by name or as the first text of an argument, or else that
of their kind.  An initialisation that fails leaves the object as it is. -/
theorem detail_is_contributed_last
    (hkind : kind.IsPlain) (first : Arguments) (more : List Arguments)
    (hcalls : ∀ a ∈ first :: more, a.IsPlain) :
    (∃ e, makeThenAgain kind first more = .ok e ∧
      (∀ values, (Object.blank kind values).initialisedAll
        (first :: more) = .ofError e) ∧
      e.kind = kind ∧
      e.detail = lastDetail (kind.classDetail.getD "") (first :: more) ∧
      e.args = (more.getLastD first).further ∧
      e.text = Text.trim (" ".intercalate (e.args ++ [e.detail])) ∧
      e.literal =
        if e.detail = "" then kind.name
        else kind.name ++ " - " ++ e.detail) ∧
    (∀ a ∈ first :: more, a.contribution?.isSome = true ↔
      a.named ≠ "" ∨ ∃ v ∈ a.values, v.isTruthy = true) ∧
    (∀ (o : Object) (a : Arguments) before v after u,
      o.kind = kind → a.setting = none →
      a.values = before ++ v :: after → ArePrintable before →
      v.isTruthy = true →
      v.plain = .error u →
        o.initialise a = .fail u.toFailure ∧ o.initialised a = o) ∧
    ∀ (o : Object) (calls : List Arguments),
      o.initialisedAll calls =
        o.initialisedAll (calls.filter fun a => (make o.kind a).isOk) := by
  obtain ⟨hfirst, hmore⟩ := List.forall_mem_cons.mp hcalls
  refine ⟨?_, fun a ha => (hcalls a ha).isSome_contribution?_iff, ?_,
    Object.initialisedAll_filter⟩
  · have hmake := initialise_of_isPlain hkind (kind.classDetail.getD "") hfirst
    have hagain :=
      foldlM_again_of_isPlain hkind (kind.classDetail.getD "") first hmore
    have hobject (values) :
        (Object.blank kind values).initialised first = .ofError _ :=
      Object.initialised_of_ok hmake
    refine ⟨⟨kind, lastDetail (kind.classDetail.getD "") (first :: more),
      (more.getLastD first).further, none⟩, ?_, ?_, rfl, rfl, rfl, rfl, ?_⟩
    · rw [makeThenAgain, make, hmake]
      exact hagain
    · intro values
      rw [Object.initialisedAll, List.foldl_cons, hobject]
      exact Object.initialisedAll_of_ok hagain
    · rw [literal]
  · rintro o a before v after u rfl hsetting hvalues hbefore hv hu
    have hfails :=
      initialise_of_unprintable hkind o.detail hsetting hvalues hbefore hv hu
    exact ⟨Object.initialise_of_error hfails,
      Object.initialised_eq_self_of_error hfails⟩

/-- An error without a text contributes an empty detail.  Arguments that count
as nothing keep the detail, but not the further texts. -/
theorem detail_is_contributed_last_of_late :
    let kind : JournalKind := ⟨.base, "CustomError", some "nothing is known"⟩
    let silent : Arguments := ⟨[.fault .value [] []], none, none⟩
    let late : Arguments :=
      ⟨[.text "lost", .int 0, .fault .value [.text "twice"] []],
        some "late", none⟩
    let empty : Arguments := ⟨[.null, .text ""], none, none⟩
    let broken : Arguments := ⟨[.text "new", .unprintable .runtime], none, none⟩
    (kind.IsPlain ∧ ∀ a ∈ [silent, late, empty], a.IsPlain) ∧
      (∃ e,
        (Object.blank kind silent.values).initialisedAll [silent] = .ofError e ∧
        e.detail = "" ∧ e.literal = "CustomError") ∧
      (∃ e, (Object.blank kind silent.values).initialisedAll [silent,
          late] = .ofError e ∧
        e.text = "lost twice late") ∧
      ∃ e, (Object.blank kind silent.values).initialisedAll [silent, late,
        empty] = .ofError e ∧
        e.args = [] ∧ e.literal = "CustomError - late" ∧
        (Object.ofError e).initialised broken = .ofError e := by
  intro kind silent late empty broken
  have hkind : kind.IsPlain := .inl rfl
  have hsilent : silent.IsPlain :=
    ⟨rfl, by simp [silent, ArePrintable, Value.plain]⟩
  have hlate : late.IsPlain :=
    ⟨rfl, by simp [late, ArePrintable, Value.plain, Value.literal,
      FailureClass.isKey, FailureClass.inherits]⟩
  have hempty : empty.IsPlain :=
    ⟨rfl, by simp [empty, ArePrintable, Value.plain, Value.literal]⟩
  refine ⟨⟨hkind, by simp [hsilent, hlate, hempty]⟩, ?_, ?_, ?_⟩
  · obtain ⟨⟨e, -, hobject, -, hdetail, -, -, hliteral⟩, -⟩ :=
      detail_is_contributed_last hkind silent [] (by simp [hsilent])
    have hnothing : e.detail = "" := hdetail.trans (by decide)
    exact ⟨e, hobject _, hnothing, hliteral.trans (if_pos hnothing)⟩
  · obtain ⟨⟨e, -, hobject, -, hdetail, hargs, htext, -⟩, -⟩ :=
      detail_is_contributed_last hkind silent [late] (by simp [hsilent, hlate])
    refine ⟨e, hobject _, ?_⟩
    rw [htext, hargs, hdetail]
    decide
  · obtain ⟨⟨e, -, hobject, hsame, hdetail, hargs, -, hliteral⟩, -,
        hbroken, -⟩ :=
      detail_is_contributed_last hkind silent [late,
        empty] (by simp [hsilent, hlate, hempty])
    refine ⟨e, hobject _, hargs.trans (by decide), ?_, ?_⟩
    · rw [hliteral, hdetail]
      decide
    · have hnew : ArePrintable [.text "new"] := by
        simp [ArePrintable, Value.plain]
      obtain ⟨-, hkept⟩ := hbroken (.ofError e) broken [.text "new"]
        (.unprintable .runtime) []
        ⟨.runtime⟩ hsame rfl rfl hnew rfl rfl
      exact hkept

end JournalError

end QueryJournal
