/-!
# Blank characters

The characters that count as empty space around a piece of text, and the
removal of those at its two ends.
-/

namespace QueryJournal.Text

/-- A blank is a space of any script, a line or paragraph separator, or one of
the control characters that separate lines, pages, fields and records. -/
def isBlank (c : Char) : Bool :=
  let n := c.toNat
  (0x9 ≤ n && n ≤ 0xD) || (0x1C ≤ n && n ≤ 0x20) || n == 0x85 || n == 0xA0 ||
    n == 0x1680 || (0x2000 ≤ n && n ≤ 0x200A) || n == 0x2028 || n == 0x2029 ||
    n == 0x202F || n == 0x205F || n == 0x3000

/-- The blanks around a number: all but the separators of files, groups, records
and units. -/
def isNumberBlank (c : Char) : Bool :=
  isBlank c && !(0x1C ≤ c.toNat && c.toNat ≤ 0x1F)

/-- Removes the characters at both ends that satisfy `p`. -/
def trimWhere
    (p : Char → Bool) (cs : List Char) : List Char :=
  ((cs.dropWhile p).reverse.dropWhile p).reverse

/-- Removes the blanks at both ends. -/
def trim (s : String) : String :=
  String.ofList (trimWhere isBlank s.toList)

theorem trimWhere_of_forall {p : Char → Bool} {cs : List Char}
    (h : ∀ c ∈ cs, p c = false) :
    trimWhere p cs = cs := by
  have hdrop : ∀ ds : List Char, (∀ c ∈ ds, p c = false) →
      ds.dropWhile p = ds := by
    intro ds hds
    cases ds with
    | nil => rfl
    | cons c ds =>
      rw [List.dropWhile_cons, hds c List.mem_cons_self,
        if_neg Bool.false_ne_true]
  have hreverse : ∀ c ∈ cs.reverse, p c = false :=
    fun c hc => h c (List.mem_reverse.mp hc)
  rw [trimWhere, hdrop cs h, hdrop cs.reverse hreverse, List.reverse_reverse]

end QueryJournal.Text
