import Mathlib.Data.List.Nodup
import ListMode.Proofs.Text.LetterCase
import ListMode.Setup

/-!
# Contradictions in a setup

A setup without contradictions names a level of the log, has intervals between two questions and
between two looks, and gives each of its producers an identifier of its own, whether or not it is
enabled. A setup with contradictions is answered by the first of them.
-/

namespace ListMode.Setup

/-! ## What occurs again -/

/-- Up to the first text that occurs again, no text has. -/
theorem repeated?_eq_some {before l : List String} {x : String}
    (h : repeated? before l = some x) :
    ∃ first rest, l = first ++ x :: rest ∧ first.Nodup ∧ (∀ y ∈ first, y ∉ before) ∧
      (x ∈ before ∨ x ∈ first) := by
  induction l generalizing before with
  | nil => nomatch h
  | cons y l ih =>
    unfold repeated? at h
    split at h
    · rename_i hy
      obtain rfl := Option.some.inj h
      exact ⟨[], l, rfl, .nil, nofun, .inl hy⟩
    · rename_i hy
      obtain ⟨first, rest, rfl, hnodup, hnew, hx⟩ := ih h
      refine ⟨y :: first, rest, rfl,
        List.nodup_cons.mpr ⟨fun hmem => hnew y hmem List.mem_cons_self, hnodup⟩,
        List.forall_mem_cons.mpr ⟨hy, fun z hz hmem => hnew z hz (List.mem_cons_of_mem _ hmem)⟩, ?_⟩
      rcases hx with hx | hx
      · rcases List.mem_cons.mp hx with rfl | hx
        · exact .inr List.mem_cons_self
        · exact .inl hx
      · exact .inr (List.mem_cons_of_mem _ hx)

theorem nodup_of_repeated {before l : List String} (h : repeated? before l = none) :
    l.Nodup ∧ ∀ x ∈ l, x ∉ before := by
  induction l generalizing before with
  | nil => exact ⟨.nil, nofun⟩
  | cons x rest ih =>
    unfold repeated? at h
    split at h
    · nomatch h
    · rename_i hx
      obtain ⟨hrest, hnew⟩ := ih h
      exact ⟨List.nodup_cons.mpr ⟨fun hmem => hnew x hmem List.mem_cons_self, hrest⟩,
        List.forall_mem_cons.mpr ⟨hx, fun y hy hmem => hnew y hy (List.mem_cons_of_mem _ hmem)⟩⟩

/-! ## The first contradiction -/

/-- A setup without contradictions. -/
structure Sound (s : Setup) : Prop where
  level : ∃ l : Log.Level, Text.Spells s.application.logLevel l.name
  poll_ne_zero : s.schedule.poll ≠ 0
  drain_ne_zero : s.schedule.drain ≠ 0
  ids : (s.producers.map (·.id)).Nodup

/-- The first contradiction in a setup, by the fault that reports it. -/
inductive Contradicts (s : Setup) : Fault → Prop where
  | level {level : String} (told : s.application.logLevel = level)
    (unknown : ¬∃ l : Log.Level, Text.Spells level l.name) :
    Contradicts s (.invalidConfig
      s!"Invalid log_level '{level}'. Must be one of: trace, debug, info, warn, error")
  | interval (level : ∃ l : Log.Level, Text.Spells s.application.logLevel l.name)
    (zero : s.schedule.poll = 0 ∨ s.schedule.drain = 0) :
    Contradicts s (.invalidConfig "Session poll and drain intervals must be non-zero")
  | id (level : ∃ l : Log.Level, Text.Spells s.application.logLevel l.name)
    (poll_ne_zero : s.schedule.poll ≠ 0) (drain_ne_zero : s.schedule.drain ≠ 0)
    {before after : List Definition} {d : Definition} (split : s.producers = before ++ d :: after)
    (ids : (before.map (·.id)).Nodup) (again : d.id ∈ before.map (·.id)) :
    Contradicts s (.invalidConfig s!"Duplicate producer ID: {d.id}")

variable {s : Setup}

theorem Contradicts.not_sound {fault : Fault} (h : s.Contradicts fault) : ¬s.Sound := by
  intro hsound
  cases h with
  | level htold hunknown => exact hunknown (htold ▸ hsound.level)
  | interval _ hzero => exact hzero.elim hsound.poll_ne_zero hsound.drain_ne_zero
  | id _ _ _ hsplit _ hagain =>
    have hids := hsound.ids
    rw [hsplit, List.map_append, List.map_cons] at hids
    exact (List.nodup_append.mp hids).2.2 _ hagain _ List.mem_cons_self rfl

/-- Either there is no contradiction and none is reported, or the first one is. -/
theorem fault?_cases (s : Setup) :
    s.fault? = none ∧ s.Sound ∨ ∃ fault, s.fault? = some fault ∧ s.Contradicts fault := by
  unfold fault?
  dsimp only
  by_cases hlevel : ∃ l : Log.Level, Text.Spells s.application.logLevel l.name
  · rw [if_neg fun hnone => (Log.Level.ofName?_isNone_iff _).mp hnone hlevel]
    by_cases hzero : s.schedule.poll = 0 ∨ s.schedule.drain = 0
    · rw [if_pos hzero]
      exact .inr ⟨_, rfl, .interval hlevel hzero⟩
    · rw [if_neg hzero]
      obtain ⟨hpoll, hdrain⟩ := not_or.mp hzero
      cases hrepeated : repeated? [] (s.producers.map (·.id)) with
      | none => exact .inl ⟨rfl, hlevel, hpoll, hdrain, (nodup_of_repeated hrepeated).1⟩
      | some id =>
        obtain ⟨first, rest, hids, hnodup, -, hid⟩ := repeated?_eq_some hrepeated
        obtain ⟨before, _, hsplit, rfl, hafter⟩ := List.map_eq_append_iff.mp hids
        obtain ⟨d, after, rfl, rfl, -⟩ := List.map_eq_cons_iff.mp hafter
        exact .inr ⟨_, rfl, .id hlevel hpoll hdrain hsplit hnodup (hid.resolve_left nofun)⟩
  · rw [if_pos ((Log.Level.ofName?_isNone_iff _).mpr hlevel)]
    exact .inr ⟨_, rfl, .level rfl hlevel⟩

/-- A setup is accepted if it has no contradiction. -/
theorem fault?_eq_none_iff (s : Setup) : s.fault? = none ↔ s.Sound := by
  rcases s.fault?_cases with ⟨hfault, hsound⟩ | ⟨fault, hfault, hcontradicts⟩
  · exact iff_of_true hfault hsound
  · rw [hfault]
    exact iff_of_false nofun hcontradicts.not_sound

end ListMode.Setup
