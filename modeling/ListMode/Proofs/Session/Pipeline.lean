import ListMode.Proofs.Merger.Bracket
import ListMode.Proofs.Session.Frame

/-!
# From the queue into the merger

A worker pushes the items of its queue in their order. As long as the queue runs, what the worker
has pushed and what the queue holds are together what was put. A queue that is found empty can be
stopped without a loss, and the worker ends with everything pushed.
-/

namespace ListMode

namespace Handoff

variable {α : Type} {q : Handoff α}

/-- A look into a running queue sees its first item, or that there is none. -/
theorem look_running (h : q.stopped = false) (id : Nat) :
    (q.look id).2.stopped = false ∧
    ((∃ a, (q.look id).1 = .item a ∧ q.items = a :: (q.look id).2.items) ∨
      (q.look id).1 = .pending ∧ (q.look id).2.items = q.items) := by
  refine ⟨(q.stopped_look id).trans h, ?_⟩
  cases hi : q.items with
  | nil =>
    rw [look_empty h hi]
    exact .inr ⟨rfl, hi⟩
  | cons a rest =>
    rw [look_item h hi]
    exact .inl ⟨a, rfl, rfl⟩

end Handoff

namespace Worker

/-- The worker began with one of the mergers `k` and has pushed `taken`. -/
def Pushed (w : Worker) (k : Merger → Prop) (taken : List Spill) : Prop :=
  ∃ m : Merger, k m ∧ w.merger = m.pushAll taken

/-- The worker began with one of the mergers `k`, pushed `all`, and has ended. -/
def Finished (w : Worker) (k : Merger → Prop) (all : List Spill) : Prop :=
  w.stage = .ended ∧ ∃ m : Merger, k m ∧ w.merger = (m.pushAll all).finish

/-- The worker began with one of the mergers `k`, pushed `all`, and could not flush the sink. -/
def Lost (w : Worker) (k : Merger → Prop) (all : List Spill) : Prop :=
  w.stage = .lost ∧ ∃ m : Merger, k m ∧ w.merger = (m.pushAll all).exhaust

/-- The worker has pushed the first part of `all`, and the running queue holds the rest. -/
structure Fills (w : Worker) (k : Merger → Prop) (q : Handoff Spill) (all : List Spill) :
    Prop where
  running : q.stopped = false
  ne_ended : w.stage ≠ .ended
  ne_lost : w.stage ≠ .lost
  split : ∃ taken, w.Pushed k taken ∧ all = taken ++ q.items

/-- The queue has stopped, and the worker has nothing left to push. -/
structure Ends (w : Worker) (k : Merger → Prop) (q : Handoff Spill) (all : List Spill) : Prop where
  stopped : q.stopped = true
  outcome : w.stage ≠ .ended ∧ w.stage ≠ .lost ∧ w.Pushed k all ∨ w.Finished k all ∨ w.Lost k all

section

variable {w w' : Worker} {k : Merger → Prop} {q q' : Handoff Spill} {all : List Spill}

/-- A step is a look into the queue. -/
theorem step_cases (h : w.step? q = some (w', q')) :
    w.stage ≠ .ended ∧ w.stage ≠ .lost ∧ ∃ (id : Nat) (q₁ : Handoff Spill),
      q₁.items = q.items ∧ q₁.stopped = q.stopped ∧
      w' = w.react id (q₁.look id).1 ∧ q' = (q₁.look id).2 := by
  unfold step? at h
  cases hst : w.stage with
  | ready =>
    rw [hst] at h
    obtain ⟨rfl, rfl⟩ := Prod.mk.inj (Option.some.inj h)
    exact ⟨nofun, nofun, q.started, { q with started := q.started + 1 }, rfl, rfl, rfl, rfl⟩
  | suspended id =>
    rw [hst] at h
    obtain ⟨⟨seen, q₂⟩, hresume, h⟩ := Option.map_eq_some_iff.mp h
    obtain ⟨rfl, rfl⟩ := Prod.mk.inj h
    unfold Handoff.resume? at hresume
    split at hresume
    · have hlook := Option.some.inj hresume
      refine ⟨nofun, nofun, id, { q with woken := q.woken.erase id }, rfl, rfl, ?_, ?_⟩
      · rw [hlook]
      · rw [hlook]
    · cases hresume
  | ended =>
    rw [hst] at h
    cases h
  | lost =>
    rw [hst] at h
    cases h

theorem Pushed.push {taken : List Spill} (h : w.Pushed k taken) {s : Spill}
    (hw : w'.merger = w.merger.push s) : w'.Pushed k (taken ++ [s]) := by
  obtain ⟨m, hm, hmerger⟩ := h
  refine ⟨m, hm, ?_⟩
  rw [hw, hmerger, Merger.pushAll, Merger.pushAll, List.foldl_append]
  rfl

theorem fills_new {n : Nat} {m : Merger} {faulty : Bool} (hm : k m) (hq : q.stopped = false) :
    (Worker.new n m faulty).Fills k q q.items :=
  ⟨hq, nofun, nofun, [], ⟨m, hm, rfl⟩, rfl⟩

theorem Fills.putAll (h : w.Fills k q all) (more : List Spill) :
    w.Fills k (q.putAll more) (all ++ more) := by
  obtain ⟨taken, hpushed, rfl⟩ := h.split
  refine ⟨(q.stopped_putAll more).trans h.running, h.ne_ended, h.ne_lost, taken, hpushed, ?_⟩
  rw [q.items_putAll, if_neg (by rw [h.running]; exact Bool.false_ne_true), List.append_assoc]

theorem Fills.step (h : w.Fills k q all) (hs : w.step? q = some (w', q')) : w'.Fills k q' all := by
  obtain ⟨hne, -, id, q₁, hitems, hstopped, rfl, rfl⟩ := step_cases hs
  obtain ⟨taken, hpushed, hall⟩ := h.split
  obtain ⟨hrunning, ⟨s, hseen, hfirst⟩ | ⟨hseen, hsame⟩⟩ :=
    Handoff.look_running (hstopped.trans h.running) id
  · rw [hseen]
    refine ⟨hrunning, nofun, nofun, taken ++ [s], hpushed.push rfl, ?_⟩
    rw [hall, ← hitems, hfirst, List.append_assoc, List.singleton_append]
  · rw [hseen]
    refine ⟨hrunning, nofun, nofun, taken, hpushed, ?_⟩
    rw [hall, hsame, hitems]

theorem Fills.step_empty (h : w.Fills k q all) (hq : q.items = []) (hs : w.step? q = some (w', q')) :
    q'.items = [] := by
  obtain ⟨-, -, id, q₁, hitems, hstopped, rfl, rfl⟩ := step_cases hs
  obtain ⟨-, ⟨s, -, hfirst⟩ | ⟨-, hsame⟩⟩ := Handoff.look_running (hstopped.trans h.running) id
  · rw [hitems, hq] at hfirst
    cases hfirst
  · rw [hsame, hitems, hq]

theorem Fills.stop (h : w.Fills k q all) (hq : q.items = []) : w.Ends k q.stop all := by
  obtain ⟨taken, hpushed, rfl⟩ := h.split
  refine ⟨q.stopped_stop, .inl ⟨h.ne_ended, h.ne_lost, ?_⟩⟩
  rw [hq, List.append_nil]
  exact hpushed

/-- A look into the stopped queue ends the worker. -/
theorem Ends.step (h : w.Ends k q all) (hs : w.step? q = some (w', q')) : w'.Ends k q' all := by
  obtain ⟨hne, hlost, id, q₁, -, hstopped, rfl, rfl⟩ := step_cases hs
  have hlook := Handoff.look_stopped (hstopped.trans h.stopped) id
  rw [hlook]
  refine ⟨hstopped.trans h.stopped, ?_⟩
  rcases h.outcome with ⟨-, -, m, hm, hmerger⟩ | ⟨hended, -⟩ | ⟨hlost', -⟩
  · unfold react
    dsimp only
    split
    · exact .inr (.inr ⟨rfl, m, hm, by rw [hmerger]⟩)
    · exact .inr (.inl ⟨rfl, m, hm, by rw [hmerger]⟩)
  · exact absurd hended hne
  · exact absurd hlost' hlost

end

end Worker

end ListMode
