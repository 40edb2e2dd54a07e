import ListMode.Session.Run

/-!
# Interleavings of a session

`Act` lists the atomic actions by which a session moves: a step of a call, of a worker or of a
polling task, the passing of time, and what anybody may ask of the session or of a producer between
them. Any list of actions that are enabled one after the other is a behaviour of the session, so a
statement about all lists is one about all interleavings.
-/

namespace ListMode

/-- An atomic action. -/
inductive Session.Act where
  /-- Call `r` goes on. -/
  | run (r : Nat)
  /-- The worker of run `r` looks into its queue. -/
  | work (r : Nat)
  /-- Polling task `n` of producer `i` reads its device out. -/
  | tick (i n : Nat)
  /-- Polling task `n` of producer `i` sees that it has been asked to stop. -/
  | notice (i n : Nat)
  /-- Time passes. -/
  | wait (ms : Nat)
  | call (id : RunId) (timeout : Option Nat) (faulty : Bool)
  | cancel (r : Nat)
  | drop (r : Nat)
  | boot (i : Nat)
  | write (i : Nat) (settings : Tree)
  /-- Somebody starts producer `i` into a queue of their own. -/
  | start (i : Nat)
  /-- Somebody asks producer `i` to stop. -/
  | ask (i : Nat)
  /-- Somebody completes a stop of producer `i`. -/
  | await (i : Nat) (stopping : Stopping)
  | shutdown (i : Nat)

/-- Places of the producers that a call at this stage has started and is in charge of. -/
def Run.Stage.engaged : Run.Stage → List Nat
  | .starting _ _ started => started
  | .running l _ => l.started
  | .asking e _ _ | .awaiting e _ => e.started
  | _ => []

/-- Places of the producers that a call at this stage starts or stops by its next step. -/
def Run.Stage.touched : Run.Stage → List Nat
  | .starting _ (i :: _) _ | .asking _ (i :: _) _ => [i]
  | .awaiting _ stops => stops.map (·.1)
  | _ => []

namespace Session

/-- The session after an action, if it is enabled. -/
def act? (s : Session) : Act → Option Session
  | .run r => s.step? r
  | .work r => s.work? r
  | .tick i n => s.tick? i n
  | .notice i n => s.notice? i n
  | .wait ms => some { s with time := s.time + ms }
  | .call id timeout faulty => some (s.call id timeout faulty).2
  | .cancel r => some (s.cancel r)
  | .drop r => some (s.drop r)
  | .boot i => some (s.bootProducer i).2
  | .write i settings => some (s.writeProducer i settings).2
  | .start i => some ((s.openQueue.2.startProducer i s.openQueue.1).2)
  | .ask i => some (s.askProducer i).2
  | .await i stopping => s.awaitProducer? (i, stopping)
  | .shutdown i => some (s.shutdownProducer i).2

/-- Spills that a device hands over by an action. Starts and stops hand over nothing, unless the
stop is one that does not wait. -/
def handed (s : Session) : Act → List Delivery
  | .tick i n => (((s.producers[i]?).bind (·.tick? n s.time s.now)).map (·.1)).getD []
  | .notice i n => (((s.producers[i]?).bind (·.notice? n s.time s.now)).map (·.1)).getD []
  | .shutdown i => ((s.producers[i]?).map (·.shutdown s.time s.now |>.2.1)).getD []
  | _ => []

/-- Places of the producers that an action starts, stops or shuts down. -/
def touched (s : Session) : Act → List Nat
  | .start i | .ask i | .await i _ | .shutdown i => [i]
  | .run r => ((s.runs[r]?).map (·.stage.touched)).getD []
  | _ => []

/-- Places of the producers that call `r` is in charge of. -/
def engaged (s : Session) (r : Nat) : List Nat :=
  ((s.runs[r]?).map (·.stage.engaged)).getD []

/-- The session after a list of actions, if each is enabled when its turn comes. -/
def after? (s : Session) : List Act → Option Session
  | [] => some s
  | a :: rest => (s.act? a).bind fun s => s.after? rest

/-- Spills that devices hand over during a list of actions. -/
def handedDuring (s : Session) : List Act → List Delivery
  | [] => []
  | a :: rest => s.handed a ++ ((s.act? a).map fun s => s.handedDuring rest).getD []

/-- Nobody but call `r` starts, stops or shuts down a producer that it is in charge of. -/
def Undisturbed (r : Nat) (s : Session) : List Act → Prop
  | [] => True
  | a :: rest => (a = .run r ∨ ∀ i ∈ s.touched a, i ∉ s.engaged r) ∧
      ∀ s', s.act? a = some s' → s'.Undisturbed r rest

/-- The action is a step of call `r`, or it starts, stops and shuts down no producer. -/
def Act.spares (r : Nat) : Act → Bool
  | .run r' => r' == r
  | .start _ | .ask _ | .await .. | .shutdown _ => false
  | _ => true

/-- Where no other call goes on and nobody starts or stops anything, a call is undisturbed. -/
theorem undisturbed_of_spares {r : Nat} {acts : List Act} (h : acts.all (·.spares r) = true)
    (s : Session) : s.Undisturbed r acts := by
  induction acts generalizing s with
  | nil => trivial
  | cons a rest ih =>
    rw [List.all_cons, Bool.and_eq_true] at h
    refine ⟨?_, fun s' _ => ih h.2 s'⟩
    cases a with
    | run r' => exact .inl (congrArg Act.run (beq_iff_eq.mp h.1))
    | start | ask | await | shutdown => cases h.1
    | _ => exact .inr fun _ hi => nomatch hi

theorem after?_append (s : Session) (acts acts' : List Act) :
    s.after? (acts ++ acts') = (s.after? acts).bind fun s => s.after? acts' := by
  induction acts generalizing s with
  | nil => rfl
  | cons a rest ih =>
    show (s.act? a).bind _ = ((s.act? a).bind _).bind _
    rw [Option.bind_assoc]
    exact congrArg _ (funext ih)

/-- What a fold does to the session is a list of actions if each of its steps is. -/
theorem acts_of_foldl {β ι : Type} {f : β → ι → β} (view : β → Session) {P : Act → Prop}
    (hstep : ∀ b i, ∃ acts : List Act, (∀ a ∈ acts, P a) ∧
      (view b).after? acts = some (view (f b i))) (l : List ι) (b : β) :
    ∃ acts : List Act, (∀ a ∈ acts, P a) ∧ (view b).after? acts = some (view (l.foldl f b)) := by
  induction l generalizing b with
  | nil => exact ⟨[], nofun, rfl⟩
  | cons i rest ih =>
    obtain ⟨first, hfirst, hb⟩ := hstep b i
    obtain ⟨more, hmore, hrest⟩ := ih (f b i)
    refine ⟨first ++ more, fun a ha => ?_, ?_⟩
    · rcases List.mem_append.mp ha with ha | ha
      · exact hfirst a ha
      · exact hmore a ha
    · rw [after?_append, hb]
      exact hrest

theorem act?_tick {s : Session} {i n : Nat} {p p' : Producer} {more : List Delivery}
    (hp : s.producers[i]? = some p) (ht : p.tick? n s.time s.now = some (more, p')) :
    s.act? (.tick i n) = some ((s.setProducer i p').deliver more) := by
  show (s.producers[i]?).bind _ = _
  rw [hp]
  show (p.tick? n s.time s.now).bind _ = _
  rw [ht]
  rfl

theorem Undisturbed.before {r : Nat} {s : Session} {before rest : List Act}
    (h : s.Undisturbed r (before ++ rest)) : s.Undisturbed r before := by
  induction before generalizing s with
  | nil => trivial
  | cons a before ih => exact ⟨h.1, fun s' hs' => ih (h.2 s' hs')⟩

end Session

end ListMode
