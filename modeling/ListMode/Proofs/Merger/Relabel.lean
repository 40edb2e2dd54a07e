import ListMode.Proofs.Merger.Conservation
import ListMode.Worker

/-!
# A merger does not look into run metadata

Of the metadata of a run a merger and its worker only ask whether it is closing, and they set its
total. So a change of the metadata that keeps clear of both can be made before the spills are merged
or after: it commutes with every operation of the queue, the merger and the worker.
-/

namespace ListMode

/-- A change of run metadata that leaves alone what a merger reads and writes. -/
structure Opaque (f : RunInfo → RunInfo) : Prop where
  isClosing_eq : ∀ info, (f info).isClosing = info.isClosing
  total_eq : ∀ (info : RunInfo) (n : Nat),
    f { info with totalEvents := n } = { f info with totalEvents := n }

namespace Spill

/-- The spill with changed metadata, if it has any. -/
def relabel (f : RunInfo → RunInfo) (s : Spill) : Spill := { s with run := s.run.map f }

end Spill

namespace InFlight

def relabel (f : RunInfo → RunInfo) (e : InFlight) : InFlight :=
  { e with spill := e.spill.relabel f }

end InFlight

namespace Sink

def Call.relabel (f : RunInfo → RunInfo) : Call → Call
  | .add s => .add (s.relabel f)
  | .flush => .flush
  | .close => .close

/-- The sink as if it had received the spills with changed metadata. -/
def relabel (f : RunInfo → RunInfo) (k : Sink) : Sink where
  archive := { k.archive with spills := k.archive.spills.map (·.relabel f) }
  tally := k.tally
  calls := k.calls.map (·.relabel f)

theorem relabel_add (f : RunInfo → RunInfo) (k : Sink) (s : Spill) :
    (k.add s).relabel f = (k.relabel f).add (s.relabel f) := by
  unfold relabel add Archive.add
  dsimp only
  rw [List.map_append, List.map_append]
  rfl

theorem relabel_flush (f : RunInfo → RunInfo) (k : Sink) :
    k.flush.relabel f = (k.relabel f).flush := by
  unfold relabel flush
  dsimp only
  rw [List.map_append]
  rfl

theorem relabel_close (f : RunInfo → RunInfo) (k : Sink) :
    k.close.relabel f = (k.relabel f).close := by
  unfold relabel close
  dsimp only
  rw [List.map_append]
  rfl

end Sink

namespace Merger

/-- The merger as if it had received and delivered the spills with changed metadata. -/
def relabel (f : RunInfo → RunInfo) (m : Merger) : Merger :=
  { m with sink := m.sink.relabel f, inFlight := m.inFlight.map (·.relabel f) }

section

variable {f : RunInfo → RunInfo}

/-! ## Receiving -/

theorem relabel_bufferAll (m : Merger) (seq : Nat) (hits : List Hit) :
    (m.bufferAll seq hits).relabel f = (m.relabel f).bufferAll seq hits := by
  induction hits generalizing m with
  | nil => rfl
  | cons hit hits ih =>
    rw [bufferAll_cons, bufferAll_cons, ih]
    rfl

theorem relabel_receive (m : Merger) (s : Spill) :
    (m.receive s).relabel f = (m.relabel f).receive (s.relabel f) := by
  have hbuffer := relabel_bufferAll (f := f) (m.counting s) m.nextSeq (m.decoded s)
  have hcounting : (m.relabel f).counting (s.relabel f) = (m.counting s).relabel f := rfl
  have hentry : (m.relabel f).entry (s.relabel f) = (m.entry s).relabel f := rfl
  rw [receive_eq, receive_eq, hcounting, hentry,
    show (m.relabel f).decoded (s.relabel f) = m.decoded s from rfl,
    show (m.relabel f).nextSeq = m.nextSeq from rfl, ← hbuffer]
  unfold relabel
  dsimp only
  rw [KeyMap.map_insert]
  rfl

/-! ## Emitting -/

theorem relabel_settle (inFlight : KeyMap Nat InFlight) (seq : Nat) :
    (settle inFlight seq).map (·.relabel f) = settle (inFlight.map (·.relabel f)) seq := by
  unfold settle
  rw [KeyMap.get?_map]
  cases inFlight.get? seq with
  | none => rfl
  | some e => exact KeyMap.map_insert _ _ _ _

theorem relabel_emit? (m : Merger) : (m.relabel f).emit? = m.emit?.map (·.relabel f) := by
  have hheld : (m.relabel f).isHeldUp = m.isHeldUp := rfl
  unfold emit?
  rw [hheld]
  split
  · rfl
  · dsimp only [relabel]
    split
    · rfl
    · split
      · rfl
      · split
        · rfl
        · rw [← relabel_settle]
          rfl

theorem relabel_emitUpTo (n : Nat) (m : Merger) :
    (emitUpTo n m).relabel f = emitUpTo n (m.relabel f) := by
  induction n generalizing m with
  | zero => rfl
  | succ n ih =>
    rw [emitUpTo, emitUpTo, relabel_emit?]
    cases m.emit? with
    | none => rfl
    | some m' => exact ih m'

theorem relabel_merge (m : Merger) : m.merge.relabel f = (m.relabel f).merge :=
  relabel_emitUpTo _ m

/-! ## Releasing -/

theorem relabel_parcel (hf : Opaque f) (m : Merger) (origin : Spill) :
    (m.parcel origin).relabel f = (m.relabel f).parcel (origin.relabel f) := by
  have hrun : ∀ info : RunInfo, f (if info.isClosing then
      { info with totalEvents := m.report.eventsOut + m.output.length } else info) =
      if (f info).isClosing then
        { f info with totalEvents := m.report.eventsOut + m.output.length } else f info := by
    intro info
    rw [hf.isClosing_eq]
    split
    · exact hf.total_eq info _
    · rfl
  unfold parcel Spill.relabel
  dsimp only
  rw [Option.map_map, Option.map_map]
  exact congrArg (fun g => Spill.mk none (.events m.output) origin.stats (origin.run.map g)
    origin.detectors) (funext hrun)

theorem relabel_deliver (hf : Opaque f) (m : Merger) (origin : Spill) :
    (m.deliver origin).relabel f = (m.relabel f).deliver (origin.relabel f) := by
  have hempty : ((m.relabel f).parcel (origin.relabel f)).isEmpty = (m.parcel origin).isEmpty := by
    rw [← relabel_parcel hf]
    unfold Spill.isEmpty Spill.relabel
    rw [Option.isNone_map]
  unfold deliver
  dsimp only
  rw [hempty, ← relabel_parcel hf]
  split
  · rfl
  · unfold relabel
    dsimp only
    rw [Sink.relabel_add]

theorem relabel_drainOne (hf : Opaque f) (m : Merger) (hold : Hold) (e : Nat × InFlight) :
    drainOne (m.relabel f, hold) (e.1, e.2.relabel f) =
      ((drainOne (m, hold) e).1.relabel f, (drainOne (m, hold) e).2) := by
  obtain ⟨seq, e⟩ := e
  have hreleases : hold.releases (e.relabel f) = hold.releases e := by
    unfold Hold.releases InFlight.relabel Spill.relabel
    dsimp only
    rw [Option.isSome_map]
    rfl
  unfold drainOne
  dsimp only
  rw [hreleases]
  split
  · have herase : ({ m.relabel f with inFlight := (m.relabel f).inFlight.erase seq } : Merger) =
        ({ m with inFlight := m.inFlight.erase seq } : Merger).relabel f := by
      unfold relabel
      dsimp only
      rw [KeyMap.map_erase]
    dsimp only
    rw [herase, relabel_deliver hf]
    rfl
  · rfl

theorem relabel_drain (hf : Opaque f) (m : Merger) : m.drain.relabel f = (m.relabel f).drain := by
  have hfold : ∀ (entries : List (Nat × InFlight)) (m : Merger) (hold : Hold),
      (entries.map fun e => (e.1, e.2.relabel f)).foldl drainOne (m.relabel f, hold) =
        ((entries.foldl drainOne (m, hold)).1.relabel f,
          (entries.foldl drainOne (m, hold)).2) := by
    intro entries
    induction entries with
    | nil => exact fun _ _ => rfl
    | cons e rest ih =>
      intro m hold
      rw [List.map_cons, List.foldl_cons, List.foldl_cons, relabel_drainOne hf, ih]
  exact (congrArg Prod.fst (hfold m.inFlight.entries m .none)).symm

theorem relabel_push (hf : Opaque f) (m : Merger) (s : Spill) :
    (m.push s).relabel f = (m.relabel f).push (s.relabel f) := by
  rw [push, push, relabel_drain hf, relabel_merge, relabel_receive]

theorem relabel_exhaust (hf : Opaque f) (m : Merger) :
    m.exhaust.relabel f = (m.relabel f).exhaust := by
  have hwound : (m.relabel f).wound = m.wound.relabel f := by
    rw [wound, wound, relabel_drain hf, relabel_merge]
    rfl
  rw [exhaust_eq, exhaust_eq, hwound, show (m.wound.relabel f).output = m.wound.output from rfl]
  split
  · rfl
  · exact relabel_deliver hf _ _

theorem relabel_finish (hf : Opaque f) (m : Merger) :
    m.finish.relabel f = (m.relabel f).finish := by
  rw [finish, finish, ← relabel_exhaust hf]
  unfold relabel
  dsimp only
  rw [Sink.relabel_flush]

end

end Merger

/-! ## Queues -/

namespace Handoff

variable {α β : Type} (g : α → β)

/-- The queue with other items. -/
def map (q : Handoff α) : Handoff β where
  items := q.items.map g
  stopped := q.stopped
  line := q.line
  woken := q.woken
  permit := q.permit
  started := q.started

def Look.map : Look α → Look β
  | .item a => .item (g a)
  | .ended => .ended
  | .pending => .pending

theorem map_put (q : Handoff α) (a : α) : (q.put a).2.map g = ((q.map g).put (g a)).2 := by
  unfold put
  rw [show (q.map g).stopped = q.stopped from rfl]
  split
  · rfl
  · unfold wakeOne map
    dsimp only
    cases q.line with
    | nil | cons => simp

theorem map_look (q : Handoff α) (id : Nat) :
    (q.map g).look id = ((q.look id).1.map g, (q.look id).2.map g) := by
  unfold look
  rw [show (q.map g).stopped = q.stopped from rfl]
  split
  · rfl
  · unfold map
    dsimp only
    cases q.items with
    | nil | cons => rfl

theorem map_beginTake (q : Handoff α) :
    (q.map g).beginTake = (q.beginTake.1, q.beginTake.2.1.map g, q.beginTake.2.2.map g) := by
  have hlook := map_look g { q with started := q.started + 1 } q.started
  unfold beginTake
  exact congrArg (fun l : Look β × Handoff β => (q.started, l.1, l.2)) hlook

theorem map_resume? (q : Handoff α) (id : Nat) :
    (q.map g).resume? id = (q.resume? id).map fun l => (l.1.map g, l.2.map g) := by
  have hlook := map_look g { q with woken := q.woken.erase id } id
  unfold resume?
  rw [show (q.map g).woken = q.woken from rfl]
  split
  · exact congrArg some hlook
  · rfl

theorem map_stop (q : Handoff α) : q.stop.map g = (q.map g).stop := by
  unfold stop
  rw [show (q.map g).stopped = q.stopped from rfl]
  split
  · rfl
  · rfl

end Handoff

/-! ## Workers -/

namespace Worker

/-- The worker as if it had taken out the spills with changed metadata. -/
def relabel (f : RunInfo → RunInfo) (w : Worker) : Worker :=
  { w with merger := w.merger.relabel f }

variable {f : RunInfo → RunInfo}

theorem relabel_react (hf : Opaque f) (w : Worker) (id : Nat) (seen : Handoff.Look Spill) :
    (w.react id seen).relabel f = (w.relabel f).react id (seen.map (·.relabel f)) := by
  cases seen with
  | item s =>
    unfold react relabel Handoff.Look.map
    dsimp only
    rw [Merger.relabel_push hf]
  | pending => rfl
  | ended =>
    unfold react relabel Handoff.Look.map
    dsimp only
    split
    · rw [Merger.relabel_exhaust hf]
    · rw [Merger.relabel_finish hf]

/-- A look into the queue. -/
theorem relabel_step? (hf : Opaque f) (w : Worker) (q : Handoff Spill) :
    (w.relabel f).step? (q.map (·.relabel f)) =
      (w.step? q).map fun x => (x.1.relabel f, x.2.map (·.relabel f)) := by
  unfold step?
  rw [show (w.relabel f).stage = w.stage from rfl]
  cases w.stage with
  | ready =>
    dsimp only
    rw [Handoff.map_beginTake, Option.map_some, relabel_react hf]
  | suspended id =>
    dsimp only
    rw [Handoff.map_resume?, Option.map_map, Option.map_map]
    refine congrArg (Option.map · (q.resume? id)) (funext fun l => ?_)
    dsimp only [Function.comp]
    rw [relabel_react hf]
  | ended | lost => rfl

end Worker

end ListMode
