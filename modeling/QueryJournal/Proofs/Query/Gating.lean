import QueryJournal.Proofs.Logging.Levels
import QueryJournal.Query.Recorder

/-!
# What gates follow

A gate is open at a level if that is positive and the level that counts for its
logger is no greater.  So the answers of a gate follow the nearest logger with a
level, on the way up from its own, and a setting changes them only if it is
about such a logger.  The gates of the four outcomes stay independent.
-/

namespace QueryJournal.Gate

open Loggers (LiesBelow levelAfter rootName canonical)

variable {g : Gate} {ls : Loggers}

theorem baseEnabled_iff :
    g.baseEnabled ls = true ↔
      0 < g.base ∧ ls.effectiveLevel g.logger ≤ g.base := by
  rw [baseEnabled, Loggers.isEnabled, Bool.and_eq_true, decide_eq_true_eq,
    decide_eq_true_eq]

theorem detailEnabled_iff :
    g.detailEnabled ls = true ↔
      0 < g.detail ∧ ls.effectiveLevel g.logger ≤ g.detail := by
  rw [detailEnabled, Loggers.isEnabled, Bool.and_eq_true, decide_eq_true_eq,
    decide_eq_true_eq]

/-- The answers of a gate. -/
def answers (g : Gate) (ls : Loggers) : Bool × Bool :=
  (g.baseEnabled ls, g.detailEnabled ls)

theorem answers_congr {ls' : Loggers}
    (h : ls'.effectiveLevel g.logger = ls.effectiveLevel g.logger) :
    g.answers ls' = g.answers ls := by
  rw [answers, baseEnabled, detailEnabled, Loggers.isEnabled,
    Loggers.isEnabled, h]
  rfl

/-- The logger of an outcome is not on the way up from that of another one. -/
theorem not_reliesOn_of_ne (ls : Loggers) {o o' : Outcome}
    (ho : o ≠ o') (level : String → ℤ) :
    canonical (loggerOf o.name) ≠ canonical (loggerOf o'.name) ∧
      ¬ls.ReliesOn level (loggerOf o'.name) (loggerOf o.name) := by
  have hapart : canonical (loggerOf o.name) ≠ canonical (loggerOf o'.name) ∧
      canonical (loggerOf o.name) ≠ rootName ∧
      ¬(loggerOf o.name).toList <+: (loggerOf o'.name).toList := by
    cases o <;> cases o' <;> first | exact absurd rfl ho | decide
  obtain ⟨hne, hroot, hprefix⟩ := hapart
  refine ⟨hne, fun hrelies => ?_⟩
  rcases hrelies.below with h | ⟨-, rest, hrest⟩
  · exact hroot h
  · exact hprefix ⟨'.' :: rest, hrest.symm⟩

/-- A gate is open at a positive level which the level of the nearest logger
that has one does not exceed, on the way up from its own logger.  Only settings
of these change its answers. -/
theorem gates_follow_nearest_level (g : Gate)
    (before later : List (String × ℤ)) :
    let ls := Loggers.after before later g.logger
    let level := levelAfter (before ++ later)
    (∃ v, ls.Inherits level g.logger v) ∧
    (∀ v, ls.Inherits level g.logger v →
      (g.baseEnabled ls = true ↔ 0 < g.base ∧ v ≤ g.base) ∧
      (g.detailEnabled ls = true ↔ 0 < g.detail ∧ v ≤ g.detail)) ∧
    (∀ p, ls.IsAbove g.logger p → LiesBelow g.logger p) ∧
    (∀ p, level p ≠ 0 → p ≠ rootName → LiesBelow g.logger p →
      ls.IsAbove g.logger p ∨ p ∈ ["r", "ro", "roo"] ∨
        ∃ rest, g.logger.toList = p.toList ++ '.' :: '.' :: rest) ∧
    (g.detail ≤ g.base → g.detailEnabled ls = true → g.baseEnabled ls = true) ∧
    (∀ other n, g.answers (ls.setLevel other n) ≠ g.answers ls →
      canonical other = canonical g.logger ∨ ls.ReliesOn level g.logger other) ∧
    ∀ settings (o o' : Outcome) n, o ≠ o' →
      let usual := (Recorder.ofSettings settings).channels
      (usual o').answers (ls.setLevel (usual o).logger n) =
        (usual o').answers ls := by
  intro ls level
  have hroot : ls.knows rootName = false :=
    Loggers.knows_rootName_after before later g.logger
  have hlevel : ls.levelOf = level :=
    Loggers.levelOf_after before later g.logger
  refine ⟨?_, ?_, fun p hp => hp.1.liesBelow, ?_, ?_, ?_, ?_⟩
  · rw [← hlevel]
    exact ⟨_, Loggers.inherits_effectiveLevel hroot g.logger⟩
  · intro v hv
    rw [← hlevel, Loggers.inherits_iff hroot] at hv
    rw [← hv]
    exact ⟨baseEnabled_iff, detailEnabled_iff⟩
  · intro p hp
    rw [← hlevel] at hp
    exact Loggers.isAbove_of_levelOf_ne hp
  · intro hle hdetail
    obtain ⟨hpositive, heffective⟩ := detailEnabled_iff.mp hdetail
    exact baseEnabled_iff.mpr ⟨Int.lt_of_lt_of_le hpositive hle,
      Int.le_trans heffective hle⟩
  · intro other n hchanged
    by_contra hnot
    obtain ⟨hother, hrelies⟩ := not_or.mp hnot
    rw [← hlevel] at hrelies
    exact hchanged
      (answers_congr (Loggers.effectiveLevel_setLevel hroot hother hrelies n))
  · intro settings o o' n ho usual
    obtain ⟨hother, hrelies⟩ := not_reliesOn_of_ne ls ho ls.levelOf
    exact answers_congr (Loggers.effectiveLevel_setLevel hroot hother hrelies n)

/-- A level that was taken back does not count: the one further up does. -/
theorem gates_follow_nearest_level_of_slow :
    let g := ofName "slow"
    let before : List (String × ℤ) :=
      [("querylog", Level.info), ("querylog.query", Level.debug)]
    let later : List (String × ℤ) := [("querylog.query", Level.unset)]
    let ls := Loggers.after before later g.logger
    g.base = Level.debug ∧
    ls.Inherits (levelAfter (before ++ later)) g.logger Level.info ∧
    g.baseEnabled ls = false := by
  intro g before later ls
  obtain ⟨-, hanswers, -⟩ := gates_follow_nearest_level g before later
  have hroot : ls.knows rootName = false :=
    Loggers.knows_rootName_after before later g.logger
  have heffective : ls.effectiveLevel g.logger = Level.info := by decide
  have hinherits : ls.Inherits
      (levelAfter (before ++ later)) g.logger Level.info := by
    rw [← Loggers.levelOf_after before later g.logger]
    exact (Loggers.inherits_iff hroot).mpr heffective
  refine ⟨rfl, hinherits, Bool.of_not_eq_true fun hopen => ?_⟩
  exact absurd ((hanswers _ hinherits).1.mp hopen).2 (by decide)

/-- Two gates below a logger that takes only what is urgent let less urgent
records through: one was there before that logger, whose name is a beginning of
the root's, and two dots stand between the other one and its logger. -/
theorem ancestors_may_be_passed_over :
    let ls := Loggers.after [("r.pool", 0), ("r", 50), ("db", 50)] [] "db..pool"
    let late : Gate := { ofName "late" with logger := "r.pool", base := 40 }
    let dotted : Gate :=
      { ofName "dotted" with logger := "db..pool", base := 40 }
    (LiesBelow "r.pool" "r" ∧ ls.levelOf "r.pool" = 0 ∧ ls.levelOf "r" = 50 ∧
      late.baseEnabled ls = true) ∧
    (LiesBelow "db..pool" "db" ∧ ls.levelOf "db..pool" = 0 ∧
      ls.levelOf "db." = 0 ∧
      ls.levelOf "db" = 50 ∧ dotted.baseEnabled ls = true) :=
  ⟨⟨⟨by decide, "pool".toList, by decide⟩, by decide, by decide, by decide⟩,
    ⟨by decide, ".pool".toList, by decide⟩, by
      decide, by decide, by decide, by decide⟩

end QueryJournal.Gate
