import QueryJournal.Proofs.Json.Standard.Writer
import QueryJournal.Proofs.Json.Writing

/-!
# The first refusal decides

Within the room that an engine has, a value is written whole if all texts in it
are there, and otherwise the first one that is not there decides the failure,
whatever comes after it. Beyond, the engine gives up, and nobody makes that the
failure that it should be.
-/

namespace QueryJournal.Json

section Refusals

variable {p : Platform} {s : Script} {room : ℕ}
  (hwrite : p.engine.Writes s room)
variable {v : Value} (hdepth : v.depth ≤ room)

include hwrite hdepth

theorem encode_eq_attempt :
    p.encode v =
      (attempt p.hook (conversions v) (document s p.hook v).written).mapError
        (Platform.refusal v) := by
  rw [encode_eq hwrite, text_eq_attempt hwrite v hdepth]

theorem encode_eq_ok_iff {t : String} :
    p.encode v = .ok t ↔ Converts p.hook v ∧
    t = (document s p.hook v).written := by
  rw [encode_eq_attempt hwrite hdepth, mapError_eq_ok_iff]
  exact attempt_eq_ok_iff

theorem exists_encode_iff : (∃ t, p.encode v = .ok t) ↔ Converts p.hook v := by
  constructor
  · rintro ⟨t, ht⟩
    exact ((encode_eq_ok_iff hwrite hdepth).mp ht).1
  · intro h
    exact ⟨_, (encode_eq_ok_iff hwrite hdepth).mpr ⟨h, rfl⟩⟩

end Refusals

/-- A value in lists that lie inside of each other. -/
def nested (v : Value) : ℕ → Value
  | 0 => v
  | n + 1 => .list [nested v n]

end QueryJournal.Json
