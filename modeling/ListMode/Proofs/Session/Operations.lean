import ListMode.Proofs.Session.Effect

/-!
# Operations on producers

Every action of a session performs at most one operation on one producer. What the operations keep,
the actions keep.
-/

namespace ListMode

/-- An operation on a producer. -/
inductive Producer.Operation where
  | boot
  | start (l : Launch)
  | ask
  | await (stopping : Stopping)
  | tick (k : Nat)
  | notice (k : Nat)
  | shutdown
  | write (settings : Tree)

namespace Producer

/-- What an operation hands over, and the producer after it, if it is enabled. -/
def operate? (p : Producer) (time : Nat) (now : Instant) :
    Operation → Option (List Delivery × Producer)
  | .boot => some ([], p.boot.2)
  | .start l => some (p.start l).2
  | .ask => some (p.beginStop time).2
  | .await stopping => (p.endStop? time stopping).map (·.2)
  | .tick k => p.tick? k time now
  | .notice k => p.notice? k time now
  | .shutdown => some (p.shutdown time now).2
  | .write settings => some ([], (p.write settings).2)

/-- The synthetic acquisition that task `k` is about to read out into queue `n`. -/
def readout (p : Producer) (n k : Nat) : List Synthetic.Acquisition :=
  match p.slot.task? k with
  | some ⟨_, _, ⟨queue, _, .synthetic a⟩⟩ => if queue = n then [a] else []
  | _ => []

/-- Nothing is handed over by the operation, unless it starts or stops a stand-in. -/
def Operation.silent : Operation → Bool
  | .start _ | .ask | .await _ => true
  | _ => false

/-- Synthetic acquisitions that an operation reads out into queue `n`. -/
def readsBy (p : Producer) (n : Nat) : Operation → List Synthetic.Acquisition
  | .tick k => p.readout n k
  | _ => []

end Producer

namespace Session

/-- Synthetic acquisitions that an action reads out into queue `n`, as they are before. -/
def readsInto (s : Session) (n : Nat) : Act → List Synthetic.Acquisition
  | .tick i k => ((s.producers[i]?).map (·.readout n k)).getD []
  | _ => []

/-- Synthetic acquisitions that are read out into queue `n` during a list of actions. -/
def readsDuring (s : Session) (n : Nat) : List Act → List Synthetic.Acquisition
  | [] => []
  | a :: rest => s.readsInto n a ++ ((s.act? a).map fun s => s.readsDuring n rest).getD []

/-- By which action an operation may be performed on producer `i`. A call starts, asks and awaits
producers; a start by anybody else has a queue of its own. -/
def Permits (s : Session) (a : Act) (i : Nat) : Producer.Operation → Prop
  | .boot => a = .boot i
  | .start l => a = .start i ∧ l.queue = s.queues.length ∨ ∃ r run o todo started, a = .run r ∧
      s.runs[r]? = some run ∧ run.stage = .starting o (i :: todo) started ∧ l.queue = o.queue
  | .ask => a = .ask i ∨ ∃ r, a = .run r
  | .await stopping => a = .await i stopping ∨ ∃ r, a = .run r
  | .tick k => a = .tick i k
  | .notice k => a = .notice i k
  | .shutdown => a = .shutdown i
  | .write settings => a = .write i settings

/-- The action leaves the producers alone. -/
structure Rests (s : Session) (a : Act) (s' : Session) : Prop where
  producers_eq : s'.producers = s.producers
  detectors_eq : s'.detectors = s.detectors
  handed_eq : s.handed a = []
  reads_eq : ∀ n, s.readsInto n a = []

/-- By the action operation `op` is performed on producer `i`, which is `p` before, and `handed` is
handed over. -/
structure Operates (s : Session) (a : Act) (i : Nat) (p : Producer) (op : Producer.Operation)
    (handed : List Delivery) (s' : Session) : Prop where
  before : s.producers[i]? = some p
  detectors_eq : s'.detectors = s.detectors
  permits : s.Permits a i op
  handed_eq : s.handed a = if op.silent then [] else handed
  reads_eq : ∀ n, s.readsInto n a = p.readsBy n op
  after : ∃ p', p.operate? s.time s.now op = some (handed, p') ∧
    s'.producers = s.producers.set i p'

/-- By the action operation `op` is performed on producer `i`, which is `p` before, and what the
action hands over comes from it. -/
structure Performs (s : Session) (a : Act) (i : Nat) (p : Producer) (op : Producer.Operation)
    (s' : Session) : Prop where
  before : s.producers[i]? = some p
  detectors_eq : s'.detectors = s.detectors
  permits : s.Permits a i op
  reads_eq : ∀ n, s.readsInto n a = p.readsBy n op
  after : ∃ p', p.operate? s.time s.now op = some (s.handed a, p') ∧
    s'.producers = s.producers.set i p'

section

variable {s s' : Session} {a : Act} {r : Nat} {run : Run}

@[simp] theorem detectors_deliver (s : Session) (handed : List Delivery) :
    (s.deliver handed).detectors = s.detectors := by
  induction handed generalizing s with
  | nil => rfl
  | cons d rest ih => exact ih (s.put d.queue d.spill)

/-- An action that starts producer `i`, when the session is `t`. -/
theorem operates_start {t : Session} {i m : Nat}
    (ht : t.producers = s.producers ∧ t.detectors = s.detectors)
    (hp : s'.producers = (t.startProducer i m).2.producers)
    (hd : s'.detectors = (t.startProducer i m).2.detectors) (hh : s.handed a = [])
    (hr : ∀ n, s.readsInto n a = []) (hpermits : s.Permits a i (.start (t.launch m))) :
    s.Rests a s' ∨ ∃ p handed, s.Operates a i p (.start (t.launch m)) handed s' := by
  unfold Session.startProducer at hp hd
  rcases Option.eq_none_or_eq_some t.producers[i]? with hget | ⟨p, hget⟩
  · rw [hget] at hp hd
    exact .inl ⟨hp.trans ht.1, hd.trans ht.2, hh, hr⟩
  · rw [hget] at hp hd
    refine .inr ⟨p, (p.start (t.launch m)).2.1, ht.1 ▸ hget,
      (hd.trans (detectors_deliver _ _)).trans ht.2, hpermits, hh, hr,
      (p.start (t.launch m)).2.2, rfl, ?_⟩
    rw [← ht.1]
    exact hp.trans (producers_deliver _ _)

/-- An action that asks producer `i` to stop. -/
theorem operates_ask {i : Nat} (hp : s'.producers = (s.askProducer i).2.producers)
    (hd : s'.detectors = (s.askProducer i).2.detectors) (hh : s.handed a = [])
    (hr : ∀ n, s.readsInto n a = []) (hpermits : s.Permits a i .ask) :
    s.Rests a s' ∨ ∃ i p op handed, s.Operates a i p op handed s' := by
  unfold askProducer at hp hd
  rcases Option.eq_none_or_eq_some s.producers[i]? with hget | ⟨p, hget⟩
  · rw [hget] at hp hd
    exact .inl ⟨hp, hd, hh, hr⟩
  · rw [hget] at hp hd
    exact .inr ⟨i, p, .ask, (p.beginStop s.time).2.1, hget, hd.trans (detectors_deliver _ _),
      hpermits, hh, hr, (p.beginStop s.time).2.2, rfl, hp.trans (producers_deliver _ _)⟩

theorem operates_await {stop : Nat × Stopping} (hs : s.awaitProducer? stop = some s') :
    ∃ p handed p', s.producers[stop.1]? = some p ∧
      p.operate? s.time s.now (.await stop.2) = some (handed, p') ∧
      s'.producers = s.producers.set stop.1 p' ∧ s'.detectors = s.detectors := by
  unfold awaitProducer? at hs
  obtain ⟨p, hp, hs⟩ := Option.bind_eq_some_iff.mp hs
  obtain ⟨⟨wasRunning, spills, p'⟩, he, hs⟩ := Option.bind_eq_some_iff.mp hs
  obtain rfl := Option.some.inj hs
  refine ⟨p, spills, p', hp, ?_, producers_deliver _ _, detectors_deliver _ _⟩
  show (p.endStop? s.time stop.2).map (·.2) = some (spills, p')
  rw [he]
  rfl

/-- The step by which a call starts producer `i`. -/
theorem operates_starting (hrun : s.runs[r]? = some run) {o : Opened} {i : Nat}
    {todo started : List Nat} (hst : run.stage = .starting o (i :: todo) started)
    (stage : Run.Stage) :
    s.Rests (.run r) ((s.startProducer i o.queue).2.setStage r stage) ∨
      ∃ p handed, s.Operates (.run r) i p (.start (s.launch o.queue)) handed
        ((s.startProducer i o.queue).2.setStage r stage) :=
  operates_start ⟨rfl, rfl⟩ rfl rfl rfl (fun _ => rfl)
    (.inr ⟨r, run, o, todo, started, rfl, hrun, hst, rfl⟩)

/-- A step of a call starts, asks or awaits one producer, or leaves the producers alone. -/
theorem operates_step (hrun : s.runs[r]? = some run) (hs : s.Steps r run s') :
    s.Rests (.run r) s' ∨ ∃ i p op handed, s.Operates (.run r) i p op handed s' := by
  cases hs with
  | turn | closeRun | stopQueue | sealRun => exact .inl ⟨rfl, rfl, rfl, fun _ => rfl⟩
  | openRun =>
    unfold openRun
    split <;> exact .inl ⟨rfl, rfl, rfl, fun _ => rfl⟩
  | launchRun =>
    unfold launchRun
    split <;> exact .inl ⟨rfl, rfl, rfl, fun _ => rfl⟩
  | start hst =>
    rcases operates_starting hrun hst _ with hrests | ⟨p, handed, ho⟩
    · exact .inl hrests
    · exact .inr ⟨_, p, _, handed, ho⟩
  | ask => exact operates_ask rfl rfl rfl (fun _ => rfl) (.inr ⟨r, rfl⟩)
  | @await e stop before after t hst hawait =>
    obtain ⟨p, handed, p', hp, hop, hproducers, hdetectors⟩ := operates_await hawait
    exact .inr ⟨stop.1, p, .await stop.2, handed, hp, hdetectors, .inr ⟨r, rfl⟩, rfl, fun _ => rfl,
      p', hop, hproducers⟩

/-- Every action performs at most one operation on one producer. -/
theorem operates (ha : s.act? a = some s') :
    s.Rests a s' ∨ ∃ i p op handed, s.Operates a i p op handed s' := by
  cases a with
  | run r =>
    obtain ⟨run, hrun, hs⟩ := steps_of_step? ha
    exact operates_step hrun hs
  | work r =>
    have hs : s.work? r = some s' := ha
    unfold work? at hs
    obtain ⟨_, -, hs⟩ := Option.bind_eq_some_iff.mp hs
    obtain ⟨_, -, hs⟩ := Option.bind_eq_some_iff.mp hs
    obtain ⟨_, -, hs⟩ := Option.bind_eq_some_iff.mp hs
    obtain rfl := Option.some.inj hs
    exact .inl ⟨rfl, rfl, rfl, fun _ => rfl⟩
  | tick i k =>
    have hs : s.tick? i k = some s' := ha
    unfold tick? at hs
    obtain ⟨p, hp, hs⟩ := Option.bind_eq_some_iff.mp hs
    obtain ⟨⟨spills, p'⟩, ht, hs⟩ := Option.bind_eq_some_iff.mp hs
    obtain rfl := Option.some.inj hs
    refine .inr ⟨i, p, .tick k, spills, hp, detectors_deliver _ _, rfl, ?_, fun n => ?_, p', ht,
      producers_deliver _ _⟩
    · simp [handed, hp, ht, Producer.Operation.silent]
    · unfold readsInto
      dsimp only
      rw [hp]
      rfl
  | notice i k =>
    have hs : s.notice? i k = some s' := ha
    unfold notice? at hs
    obtain ⟨p, hp, hs⟩ := Option.bind_eq_some_iff.mp hs
    obtain ⟨⟨spills, p'⟩, ht, hs⟩ := Option.bind_eq_some_iff.mp hs
    obtain rfl := Option.some.inj hs
    refine .inr ⟨i, p, .notice k, spills, hp, detectors_deliver _ _, rfl, ?_, fun _ => rfl, p',
      ht, producers_deliver _ _⟩
    simp [handed, hp, ht, Producer.Operation.silent]
  | wait ms =>
    obtain rfl := Option.some.inj ha
    exact .inl ⟨rfl, rfl, rfl, fun _ => rfl⟩
  | call id timeout faulty =>
    obtain rfl := Option.some.inj ha
    exact .inl ⟨rfl, rfl, rfl, fun _ => rfl⟩
  | cancel r =>
    obtain rfl := Option.some.inj ha
    exact .inl ⟨rfl, rfl, rfl, fun _ => rfl⟩
  | drop r =>
    obtain rfl := Option.some.inj ha
    unfold drop
    split
    · exact .inl ⟨rfl, rfl, rfl, fun _ => rfl⟩
    · split <;> exact .inl ⟨rfl, rfl, rfl, fun _ => rfl⟩
  | boot i =>
    obtain rfl := Option.some.inj ha
    unfold bootProducer
    cases hp : s.producers[i]? with
    | none => exact .inl ⟨rfl, rfl, rfl, fun _ => rfl⟩
    | some p => exact .inr ⟨i, p, .boot, [], hp, rfl, rfl, rfl, fun _ => rfl, p.boot.2, rfl, rfl⟩
  | write i settings =>
    obtain rfl := Option.some.inj ha
    unfold writeProducer
    cases hp : s.producers[i]? with
    | none => exact .inl ⟨rfl, rfl, rfl, fun _ => rfl⟩
    | some p =>
      exact .inr ⟨i, p, .write settings, [], hp, rfl, rfl, rfl, fun _ => rfl,
        (p.write settings).2, rfl, rfl⟩
  | start i =>
    obtain rfl := Option.some.inj ha
    have hstarts : s.Rests (.start i) (s.openQueue.2.startProducer i s.queues.length).2 ∨
        ∃ p handed, s.Operates (.start i) i p (.start (s.openQueue.2.launch s.queues.length))
          handed (s.openQueue.2.startProducer i s.queues.length).2 :=
      operates_start ⟨rfl, rfl⟩ rfl rfl rfl (fun _ => rfl) (.inl ⟨rfl, rfl⟩)
    rcases hstarts with hrests | ⟨p, handed, ho⟩
    · exact .inl hrests
    · exact .inr ⟨i, p, _, handed, ho⟩
  | ask i =>
    obtain rfl := Option.some.inj ha
    exact operates_ask rfl rfl rfl (fun _ => rfl) (.inl rfl)
  | await i stopping =>
    obtain ⟨p, handed, p', hp, hop, hproducers, hdetectors⟩ := operates_await ha
    exact .inr ⟨i, p, .await stopping, handed, hp, hdetectors, .inl rfl, rfl, fun _ => rfl, p', hop,
      hproducers⟩
  | shutdown i =>
    obtain rfl := Option.some.inj ha
    cases hp : s.producers[i]? with
    | none =>
      unfold shutdownProducer
      rw [hp]
      exact .inl ⟨rfl, rfl, by simp [handed, hp], fun _ => rfl⟩
    | some p =>
      unfold shutdownProducer
      rw [hp]
      refine .inr ⟨i, p, .shutdown, (p.shutdown s.time s.now).2.1, hp, detectors_deliver _ _,
        rfl, ?_, fun _ => rfl, (p.shutdown s.time s.now).2.2, rfl, producers_deliver _ _⟩
      simp [handed, hp, Producer.Operation.silent]

/-! ## Sound sessions -/

/-- Digitizers and replays hand over nothing when they start or stop. -/
theorem silent_of_real {p p' : Producer} {op : Producer.Operation} {time : Nat} {now : Instant}
    {handed : List Delivery} (hp : p.Real) (h : p.operate? time now op = some (handed, p'))
    (hsilent : op.silent = true) : handed = [] := by
  cases op with
  | start l =>
    obtain ⟨rfl, -⟩ := Prod.mk.inj (Option.some.inj h)
    exact (hp.start l).handed
  | ask =>
    obtain ⟨rfl, -⟩ := Prod.mk.inj (Option.some.inj h)
    exact (hp.beginStop time).2.1
  | await stopping =>
    obtain ⟨⟨wasRunning, more, p''⟩, he, hresult⟩ := Option.map_eq_some_iff.mp h
    obtain ⟨rfl, -⟩ := Prod.mk.inj hresult
    exact (hp.endStop he).2.1
  | boot | tick | notice | shutdown | write => nomatch hsilent

theorem Sound.performs (h : s.Sound) {i : Nat} {p : Producer} {op : Producer.Operation}
    {handed : List Delivery} (ho : s.Operates a i p op handed s') : s.Performs a i p op s' := by
  obtain ⟨p', hop, hproducers⟩ := ho.after
  refine ⟨ho.before, ho.detectors_eq, ho.permits, ho.reads_eq, p', ?_, hproducers⟩
  rw [ho.handed_eq]
  split
  · rename_i hsilent
    rw [← silent_of_real (h.real i p ho.before) hop hsilent]
    exact hop
  · exact hop

theorem Sound.operates_starting (h : s.Sound) (hrun : s.runs[r]? = some run) {o : Opened} {i : Nat}
    {todo started : List Nat} (hst : run.stage = .starting o (i :: todo) started)
    (stage : Run.Stage) :
    s.Rests (.run r) ((s.startProducer i o.queue).2.setStage r stage) ∨
      ∃ p, s.Performs (.run r) i p (.start (s.launch o.queue))
        ((s.startProducer i o.queue).2.setStage r stage) := by
  rcases Session.operates_starting hrun hst stage with hrests | ⟨p, handed, ho⟩
  · exact .inl hrests
  · exact .inr ⟨p, h.performs ho⟩

theorem Sound.operates (h : s.Sound) (ha : s.act? a = some s') :
    s.Rests a s' ∨ ∃ i p op, s.Performs a i p op s' := by
  rcases Session.operates ha with hrests | ⟨i, p, op, handed, ho⟩
  · exact .inl hrests
  · exact .inr ⟨i, p, op, h.performs ho⟩

end

end Session

end ListMode
