import QueryJournal.Json.Reader
import QueryJournal.Json.Writer
import QueryJournal.Proofs.Number.Digits
import QueryJournal.Proofs.Text.Hex

/-!
# Documents

JSON by its structure, before it is laid out as text.  A document says how each
character of a string and each number with a fraction is spelled, so it
determines its text, and it also has a value.  Engines are described by the
documents that they write and read.
-/

namespace QueryJournal.Json

/-- A character inside of a string, as it is spelled. -/
inductive Piece where
  /-- A character that stands for itself. -/
  | self (c : Char) (h : c ≠ '"' ∧ c ≠ '\\' ∧ 0x20 ≤ c.toNat)
  /-- A character with a short escape. -/
  | short (letter c : Char) (h : (letter, c) ∈ shortEscapes)
  /-- A character that is given by its number. -/
  | code (c : Char) (h : c.toNat < 0x10000)

namespace Piece

/-- The character that is meant. -/
def char : Piece → Char
  | .self c _ | .short _ c _ | .code c _ => c

/-- The characters that are written. -/
def spelled : Piece → List Char
  | .self c _ => [c]
  | .short letter _ _ => ['\\', letter]
  | .code c _ => '\\' :: 'u' :: Text.Hex.digits 4 c.toNat

/-- The text that is meant by some pieces. -/
def meaning (ps : List Piece) : String :=
  String.ofList (ps.map char)

/-- A string with its quotes. -/
def quoted (ps : List Piece) : String :=
  "\"" ++ String.ofList (ps.flatMap spelled) ++ "\""

end Piece

/-- A JSON document. -/
inductive Document where
  /-- The word for no value. -/
  | null
  /-- A word for a truth value. -/
  | truth (b : Bool)
  /-- An integer. -/
  | int (n : ℤ)
  /-- A floating-point number, as it is spelled. -/
  | real (x : Binary) (spelled : String)
  /-- A string. -/
  | text (ps : List Piece)
  /-- A list. -/
  | list (ds : List Document)
  /-- An object, with the pieces of its keys. -/
  | object (members : List (List Piece × Document))

/-- The text of an integer, with its sign, is short enough to be read. -/
def isShort (n : ℤ) : Bool :=
  (Number.text n).length ≤ Number.longestText

namespace Document

mutual

/-- The text of a document. -/
def written : Document → String
  | .null => "null"
  | .truth b => if b then "true" else "false"
  | .int n => Number.text n
  | .real _ spelled => spelled
  | .text ps => Piece.quoted ps
  | .list ds => array (writtenOf ds)
  | .object members => Json.object (writtenIn members)

/-- The texts of some documents. -/
def writtenOf : List Document → List String
  | [] => []
  | d :: ds => written d :: writtenOf ds

/-- The texts of some members. -/
def writtenIn : List (List Piece × Document) → List (String × String)
  | [] => []
  | (ps, d) :: members => (Piece.quoted ps, written d) :: writtenIn members

end

mutual

/-- The value of a document. -/
def value : Document → Value
  | .null => .null
  | .truth b => .truth b
  | .int n => .int n
  | .real x _ => .float x
  | .text ps => .text (Piece.meaning ps)
  | .list ds => .list (valuesOf ds)
  | .object members => ofMembers (valuesIn members)

/-- The values of some documents. -/
def valuesOf : List Document → List Value
  | [] => []
  | d :: ds => value d :: valuesOf ds

/-- The keys and values of some members. -/
def valuesIn : List (List Piece × Document) → List (String × Value)
  | [] => []
  | (ps, d) :: members => (Piece.meaning ps, value d) :: valuesIn members

end

mutual

/-- How many lists and objects lie inside of each other. -/
def depth : Document → ℕ
  | .list ds => depthOf ds + 1
  | .object members => depthIn members + 1
  | _ => 0

/-- The greatest depth of some documents. -/
def depthOf : List Document → ℕ
  | [] => 0
  | d :: ds => max (depth d) (depthOf ds)

/-- The greatest depth of some members. -/
def depthIn : List (List Piece × Document) → ℕ
  | [] => 0
  | (_, d) :: members => max (depth d) (depthIn members)

end

mutual

/-- Whether all words, numbers and strings of a document pass a test.  Keys are
not looked at. -/
def allLeaves (test : Document → Bool) : Document → Bool
  | .list ds => allLeavesOf test ds
  | .object members => allLeavesIn test members
  | d => test d

/-- Whether all words, numbers and strings of some documents pass a test. -/
def allLeavesOf (test : Document → Bool) : List Document → Bool
  | [] => true
  | d :: ds => allLeaves test d && allLeavesOf test ds

/-- Whether all words, numbers and strings of some members pass a test. -/
def allLeavesIn (test : Document → Bool) : List (List Piece × Document) → Bool
  | [] => true
  | (_, d) :: members => allLeaves test d && allLeavesIn test members

end

/-- Whether a document is no integer with too many digits. -/
def isShort : Document → Bool
  | .int n => Json.isShort n
  | _ => true

/-- Whether a document is no floating-point number. -/
def isExact : Document → Bool
  | .real _ _ => false
  | _ => true

/-- A document is readable if all of its integers are short enough. -/
def isReadable (d : Document) : Bool :=
  d.allLeaves isShort

end Document

/-! ## One line -/

/-- There is no control character in a text. -/
def NoControls (s : String) : Prop :=
  ∀ c ∈ s.toList, 0x20 ≤ c.toNat

instance (s : String) : Decidable (NoControls s) :=
  List.decidableBAll (fun c : Char => 0x20 ≤ c.toNat) s.toList

theorem NoControls.append {s t : String}
    (hs : NoControls s) (ht : NoControls t) :
    NoControls (s ++ t) := by
  intro c hc
  rw [String.toList_append] at hc
  exact (List.mem_append.mp hc).elim (hs c) (ht c)

theorem NoControls.intercalate
    {separator : String} (hseparator : NoControls separator)
    {items : List String}
    (h : ∀ item ∈ items, NoControls item) :
    NoControls (separator.intercalate items) := by
  match items with
  | [] =>
    rw [String.intercalate_nil]
    exact List.forall_mem_nil _
  | [item] =>
    rw [String.intercalate_singleton]
    exact h item List.mem_cons_self
  | item :: next :: items =>
    rw [String.intercalate_cons_cons]
    refine ((h item List.mem_cons_self).append hseparator).append ?_
    exact NoControls.intercalate hseparator fun t ht =>
      h t (List.mem_cons_of_mem _ ht)

theorem noControls_digits {n : ℕ} : ∀ c ∈ Number.digits n, 0x20 ≤ c.toNat := by
  intro c hc
  have hdigit := Char.isDigit_iff_toNat.mp (Number.isDigit_of_mem_digits c hc)
  have hzero : 0x20 ≤ '0'.toNat := by decide
  exact Nat.le_trans hzero hdigit.1

theorem noControls_text (n : ℤ) : NoControls (Number.text n) := by
  intro c hc
  cases n with
  | ofNat n =>
    rw [Number.text, String.toList_ofList] at hc
    exact noControls_digits c hc
  | negSucc n =>
    rw [Number.text, String.toList_ofList] at hc
    rcases List.mem_cons.mp hc with rfl | hc
    · decide
    · exact noControls_digits c hc

theorem noControls_spelled (p : Piece) : ∀ c ∈ p.spelled, 0x20 ≤ c.toNat := by
  have hletters : ∀ escape ∈ shortEscapes, 0x20 ≤ escape.1.toNat := by decide
  have hdigits : Text.Hex.lowerDigits.all (fun c => 0x20 ≤ c.toNat) = true := by
    decide
  have hmarks : ∀ c ∈ ['\\', 'u'], 0x20 ≤ c.toNat := by simp
  intro c hc
  cases p with
  | self d h =>
    rw [List.mem_singleton.mp hc]
    exact h.2.2
  | short letter d h =>
    rcases List.mem_cons.mp hc with rfl | hc
    · exact hmarks _ List.mem_cons_self
    · rw [List.mem_singleton.mp hc]
      exact hletters _ h
  | code d h =>
    rcases List.mem_cons.mp hc with rfl | hc
    · exact hmarks _ List.mem_cons_self
    rcases List.mem_cons.mp hc with rfl | hc
    · exact hmarks _ (List.mem_cons_of_mem _ List.mem_cons_self)
    · exact of_decide_eq_true
        (List.all_eq_true.mp hdigits c (Text.Hex.mem_digits hc))

/-- A string shows no control character, whatever it holds. -/
theorem noControls_quoted (ps : List Piece) : NoControls (Piece.quoted ps) := by
  have hmark : NoControls "\"" := by decide
  have hinside : NoControls (String.ofList (ps.flatMap Piece.spelled)) := by
    intro c hc
    rw [String.toList_ofList] at hc
    obtain ⟨p, -, hp⟩ := List.mem_flatMap.mp hc
    exact noControls_spelled p c hp
  exact (hmark.append hinside).append hmark

theorem noControls_array {items : List String}
    (h : ∀ item ∈ items, NoControls item) :
    NoControls (array items) := by
  have hopen : NoControls "[" := by decide
  have hcomma : NoControls "," := by decide
  have hclose : NoControls "]" := by decide
  exact (hopen.append (hcomma.intercalate h)).append hclose

theorem noControls_object
    {members : List (String × String)}
    (h : ∀ m ∈ members, NoControls m.1 ∧ NoControls m.2) :
    NoControls (object members) := by
  have hopen : NoControls "\x7b" := by decide
  have hcomma : NoControls "," := by decide
  have hclose : NoControls "\x7d" := by decide
  have hcolon : NoControls ":" := by decide
  have hmembers : ∀ s ∈ members.map fun m =>
      m.1 ++ ":" ++ m.2, NoControls s := by
    intro s hs
    obtain ⟨m, hm, rfl⟩ := List.mem_map.mp hs
    exact ((h m hm).1.append hcolon).append (h m hm).2
  exact (hopen.append (hcomma.intercalate hmembers)).append hclose

mutual

/-- No control character stands in the text of a document. -/
theorem noControls_written
    (d : Document) (h : d.allLeaves Document.isExact = true) :
    NoControls d.written := by
  cases d with
  | null =>
    rw [Document.written]
    decide
  | truth b =>
    rw [Document.written]
    cases b with
    | true => decide
    | false => decide
  | int n =>
    rw [Document.written]
    exact noControls_text n
  | real x spelled => cases h
  | text ps =>
    rw [Document.written]
    exact noControls_quoted ps
  | list ds =>
    rw [Document.written]
    exact noControls_array (noControls_writtenOf ds h)
  | object members =>
    rw [Document.written]
    exact noControls_object (noControls_writtenIn members h)

theorem noControls_writtenOf
    (ds : List Document) (h : Document.allLeavesOf Document.isExact ds = true) :
    ∀ s ∈ Document.writtenOf ds, NoControls s := by
  cases ds with
  | nil => exact List.forall_mem_nil _
  | cons d ds =>
    rw [Document.allLeavesOf, Bool.and_eq_true] at h
    rw [Document.writtenOf, List.forall_mem_cons]
    exact ⟨noControls_written d h.1, noControls_writtenOf ds h.2⟩

theorem noControls_writtenIn
    (members : List (List Piece × Document))
    (h : Document.allLeavesIn Document.isExact members = true) :
    ∀ m ∈ Document.writtenIn members, NoControls m.1 ∧ NoControls m.2 := by
  cases members with
  | nil => exact List.forall_mem_nil _
  | cons member members =>
    obtain ⟨ps, d⟩ := member
    rw [Document.allLeavesIn, Bool.and_eq_true] at h
    rw [Document.writtenIn, List.forall_mem_cons]
    exact ⟨⟨noControls_quoted ps, noControls_written d h.1⟩,
      noControls_writtenIn members h.2⟩

end

end QueryJournal.Json
