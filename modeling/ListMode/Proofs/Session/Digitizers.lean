import ListMode.Proofs.Registry
import ListMode.Proofs.Session.Completion
import ListMode.Proofs.Session.Provision

/-!
# Runs of digitizers from end to end

A setup whose producers are digitizers and whose detectors declare every channel: whatever the
digitizers draw, however their spills interleave and why ever the run ends, a run that returns an
outcome has given its sink every hit of its acquisitions, decoded and in order, and the statistics
that say a channel has stopped count the hits of the channel.
-/

namespace ListMode.Session

open Synthetic (Crew Member Woven generated stopped strand)

section

variable {members : List Member} {detectors : List Detector} {s t : Session} {r : Nat} {run : Run}
  {handed : List Delivery} {reads : Nat → List Synthetic.Acquisition} {outcome : Outcome}
  {started : List Nat} {m : Member} {c : Channel}

/-! ## The merger of a run -/

theorem mem_awaited : c ∈ t.awaited started ↔
    (∃ d ∈ t.detectors, d.channel = some c) ∧ ∃ p ∈ t.producersAt started, c ∈ p.channels := by
  unfold awaited
  simp

/-- A digitizer that hands over buffers has their decoder registered. -/
theorem get?_decoding {ps : List Producer} {id : String}
    (h : ∃ p ∈ ps, p.id = id ∧ p.decoder?.isSome) :
    (decoding ps).decoders.get? id = some Record.decoder := by
  have hone : ∀ (p : Producer) (decoder : Decoder), p.decoder? = some decoder →
      decoder = Record.decoder := by
    intro p decoder hd
    unfold Producer.decoder? at hd
    split at hd
    · split at hd
      · exact (Option.some.inj hd).symm
      · nomatch hd
    · nomatch hd
  obtain ⟨p, hp, rfl, hd⟩ := h
  unfold decoding
  induction ps using List.reverseRecOn with
  | nil => nomatch hp
  | append_singleton ps q ih =>
    rw [List.foldl_append, List.foldl_cons, List.foldl_nil]
    cases hq : q.decoder? with
    | none =>
      rcases List.mem_append.mp hp with hp | hp
      · exact ih hp
      · obtain rfl := List.mem_singleton.mp hp
        rw [hq] at hd
        nomatch hd
    | some decoder =>
      obtain rfl := hone q decoder hq
      unfold Merger.withDecoder
      dsimp only
      rw [KeyMap.get?_insert]
      split
      · rfl
      · rename_i hne
        rcases List.mem_append.mp hp with hp | hp
        · exact ih hp
        · exact absurd (congrArg Producer.id (List.mem_singleton.mp hp)).symm hne

/-- The digitizers that a run has started. -/
def crewAt (members : List Member) (started : List Nat) : List Member :=
  started.filterMap (members[·]?)

theorem map_id_crewAt (members : List Member) (started : List Nat) :
    (crewAt members started).map (·.id) = namesOf members started := List.map_filterMap

theorem Manned.producerAt (h : t.Manned members) (hm : m ∈ crewAt members started) :
    ∃ p ∈ t.producersAt started, p.id = m.id ∧ p.device = .synthetic m.config := by
  obtain ⟨i, hi, hm⟩ := List.mem_filterMap.mp hm
  obtain ⟨p, hp, hid, hdevice⟩ := h.producer hm
  exact ⟨p, List.mem_filterMap.mpr ⟨i, hi, hp⟩, hid, hdevice⟩

/-! ## A run that has returned -/

/-- The spills of a completed run are woven of those of the digitizers it has started. -/
theorem Provision.woven (h : Provision members detectors r handed reads s) (hcrew : Crew members)
    (hrun : s.runs[r]? = some run) (hst : run.stage = .returned (.ok outcome)) {w : Worker}
    (hw : run.worker = some w) (ht : t.Manned members)
    (hnames : outcome.started = namesOf members started) (opening closing : RunInfo) :
    Woven (decoding (t.producersAt started)) (crewAt members started)
      (opening.bracket closing (into w.queue handed)) (reads w.queue) := by
  have hfollows := h.invariant.upholds run hrun
  have hfed : run.fed? members = some (w.queue, outcome.started) := by
    unfold Run.fed?
    rw [hst, hw]
    rfl
  have hsupply := h.supply run _ _ hrun hfed
  have hunfed : ∀ i k, ¬s.Feeds w.queue i k := by
    intro i k hk
    have ha := hfollows.accounts w.queue i k (owns_of_fed hfed) hk
    rw [hst] at ha
    exact ha
  have hmember : ∀ m ∈ crewAt members started, ∃ i, members[i]? = some m := fun m hm =>
    (List.mem_filterMap.mp hm).imp fun i hi => hi.2
  have hstem : ∀ id ∈ outcome.started, ∃ m ∈ crewAt members started, m.id = id := by
    intro id hid
    rw [hnames, ← map_id_crewAt] at hid
    exact List.mem_map.mp hid
  have hstrand : ∀ id, strand id (opening.bracket closing (into w.queue handed)) =
      strand id (into w.queue handed) := by
    intro id
    simp [strand, RunInfo.bracket, Spill.boundary, Spill.blank]
  constructor
  · intro p hp q hq
    obtain ⟨i, hi⟩ := hmember p hp
    obtain ⟨j, hj⟩ := hmember q hq
    exact hcrew.owner p (List.mem_of_getElem? hi) q (List.mem_of_getElem? hj)
  · intro m hm hraw
    obtain ⟨p, hp, hid, hdevice⟩ := ht.producerAt hm
    refine get?_decoding ⟨p, hp, hid, ?_⟩
    unfold Producer.decoder?
    rw [hdevice]
    dsimp only
    rw [if_pos hraw]
    rfl
  · intro m hm
    obtain ⟨i, hi⟩ := hmember m hm
    obtain ⟨p, hp, -, -⟩ := h.manned.producer hi
    rw [hstrand]
    rcases (hsupply.flowing i p m hp hi).course with ⟨a, ha, -⟩ | ⟨-, hover⟩
    · rw [Producer.feeding_eq_nil fun t ht hq => hunfed i t.number ⟨p, hp, t, ht, rfl, hq⟩] at ha
      cases ha
    · exact hover
  · intro x hx
    rcases List.mem_append.mp hx with hx | hx
    · rcases List.mem_cons.mp hx with rfl | hx
      · exact .inr ⟨rfl, rfl⟩
      · obtain ⟨m, -, hname, hsource⟩ := hsupply.stem x hx
        obtain ⟨m', hm', hid⟩ := hstem m.id hname
        exact .inl ⟨m', hm', by rw [hsource, hid]⟩
    · obtain rfl := List.mem_singleton.mp hx
      exact .inr ⟨rfl, rfl⟩
  · intro a ha
    obtain ⟨m, -, hname, hid⟩ := hsupply.reads_stem a ha
    obtain ⟨m', hm', hid'⟩ := hstem m.id hname
    exact ⟨m', hm', hid.trans hid'.symm⟩

/-- Detectors that declare what the producers read make a run wait for all of its digitizers. -/
theorem Manned.awaits (ht : t.Manned members)
    (hdeclared : ∀ m ∈ members, ∀ c ∈ m.config.channels, ∃ d ∈ t.detectors, d.channel = some c)
    (hm : m ∈ crewAt members started) (hc : c ∈ m.config.channels) : c ∈ t.awaited started := by
  obtain ⟨p, hp, -, hdevice⟩ := ht.producerAt hm
  obtain ⟨i, -, hi⟩ := List.mem_filterMap.mp hm
  refine mem_awaited.mpr ⟨hdeclared m (List.mem_of_getElem? hi) c hc, p, hp, ?_⟩
  unfold Producer.channels
  rw [hdevice]
  exact hc

end

/-! ## From end to end -/

section

variable {setup : Setup} {clock : Nat → Instant} {entropy : Nat → Random.Source} {s₀ s : Session}
  {r : Nat} {acts : List Act} {run : Run} {outcome : Outcome}

/-- A session that has just been built for a setup provides for every call. -/
theorem provision_new (members : List Member) (timing : Timing) (detectors : List Detector)
    (clock : Nat → Instant) (entropy : Nat → Random.Source) (r : Nat) :
    Provision members detectors r [] (fun _ => [])
      (new timing detectors (members.map (·.producer)) clock entropy) := by
  refine ⟨invariant_new (fun p hp => ?_) _ r, ?_, rfl, fun _ _ => rfl,
    fun run n names hrun => nomatch hrun⟩
  · obtain ⟨m, -, rfl⟩ := List.mem_map.mp hp
    exact .synthetic m.id m.config
  · exact List.map_map

/-- What a run that returns an outcome has given its sink, where the producers are digitizers, the
detectors declare every channel, nobody writes settings, and nobody but the call starts or stops its
producers. No buffer was undecodable. The hits are ordered by time and channel, and each channel has
those that its acquisition drew, in the order in which they were drawn. Each channel stops at most
once, and its statistics then count its hits; these numbers add up to all hits, unless a readout of
the run has crashed. -/
theorem run_of_digitizers (hsetup : ofSetup setup .builtin clock entropy = .ok s₀)
    (hdeclared : ∀ p ∈ s₀.producers, ∀ c ∈ p.channels, ∃ d ∈ s₀.detectors, d.channel = some c)
    (hacts : s₀.after? acts = some s) (hwrite : ∀ a ∈ acts, ∀ i settings, a ≠ .write i settings)
    (hu : s₀.Undisturbed r acts) (hrun : s.runs[r]? = some run)
    (hresult : run.result? = some (.ok outcome)) :
    ∃ (w : Worker) (received : List Spill), run.worker = some w ∧
      run.sink.calls = received.map .add ++ [.flush, .close] ∧
      outcome.report.decodeErrors = 0 ∧
      (received.flatMap Spill.hits).Pairwise (·.key ≤ ·.key) ∧
      (∀ c, Hit.onChannel c (received.flatMap Spill.hits) =
        Hit.onChannel c (generated (s₀.readsDuring w.queue acts))) ∧
      ((stopped received).map (·.channel)).Nodup ∧
      (∀ x ∈ stopped received, x.counter? Snapshot.triggerCount =
        some (Hit.onChannel x.channel (received.flatMap Spill.hits)).length.toFloat) ∧
      ((∀ a ∈ s₀.readsDuring w.queue acts, a.draw?.isSome = true) →
        ((stopped received).map fun x =>
          (Hit.onChannel x.channel (received.flatMap Spill.hits)).length).sum =
        (received.flatMap Spill.hits).length) := by
  obtain ⟨members, hcrew, rfl⟩ := ofSetup_builtin hsetup
  have hprovision := (provision_new members setup.schedule.toTiming setup.detectors clock entropy
    r).after hcrew.ids (fun m hm => (hcrew.usable m hm).interval_ne_zero) hacts hwrite hu
  have hst : run.stage = .returned (.ok outcome) := by
    unfold Run.result? at hresult
    split at hresult
    · rename_i hst
      rw [hst, Option.some.inj hresult]
    · nomatch hresult
  obtain ⟨⟨w, opening, closing, hw, hsettled⟩, -, -⟩ :=
    (hprovision.invariant.upholds run hrun).at_stage hst
  obtain ⟨m, ⟨t, started, ht, hdetectors, hnames, rfl⟩, hmerger⟩ := hsettled.merger_eq
  have hwoven := hprovision.woven hcrew hrun hst hw ht hnames opening closing
  rw [merger_eq] at hmerger
  obtain ⟨hfresh, hsink⟩ := fresh_decoding (t.producersAt started)
  generalize hfinal : (((decoding (t.producersAt started)).withChannels
    (t.awaited started)).pushAll _).finish = final at hmerger
  have hawaits : ∀ m ∈ crewAt members started, ∀ c ∈ m.config.channels, c ∈ t.awaited started := by
    intro m hm c hc
    refine ht.awaits (fun m hm c hc => ?_) hm hc
    rw [hdetectors]
    exact hdeclared m.producer (List.mem_map_of_mem hm) c hc
  have hmerged := hwoven.merged hfresh hawaits hfinal.symm
  have hhanded : final.handedSince (decoding (t.producersAt started)) =
      final.sink.archive.spills := by
    unfold Merger.handedSince
    rw [hsink]
    exact List.drop_zero
  unfold Merger.deliveredSince at hmerged
  rw [hhanded] at hmerged
  have hcalls : final.sink.calls = final.sink.archive.spills.map .add ++ [.flush] := by
    have hunflushed : ((decoding (t.producersAt started)).withChannels
        (t.awaited started)).Unflushed := by
      show (decoding (t.producersAt started)).sink.calls =
        (decoding (t.producersAt started)).sink.archive.spills.map .add
      rw [hsink]
      rfl
    rw [← hfinal]
    exact (hfresh.withChannels (t.awaited started)).calls_finish hunflushed _
  have hrunsink : run.sink = w.merger.sink := by
    rw [Run.sink, hw]
  have hreport : outcome.report = final.report := by
    rw [hsettled.report_eq, hmerger]
  refine ⟨w, final.sink.archive.spills, hw, ?_, ?_⟩
  · rw [hrunsink, hmerger]
    show final.sink.calls ++ [.close] = _
    rw [hcalls, List.append_assoc]
    rfl
  · rw [hreport]
    exact hmerged

end

/-! ## One digitizer -/

/-- One channel, and readouts as far apart as the device clock allows. -/
def sparse : Synthetic.Config :=
  { Synthetic.Config.default with
    channels := [0]
    rate := 0.0000000055
    interval := 184467440737 }

def sparseSetup : Setup where
  application := ⟨"daq", "info"⟩
  schedule := ⟨⟨1000, 50⟩, none⟩
  detectors := [⟨"left", "germanium", some 0⟩]
  producers := [⟨"left", "mock", true, .obj [("channels", .arr [.int 0]),
    ("event_rate_hz", .float 0.0000000055), ("spill_interval_ms", .int 184467440737)]⟩]

/-- The first draw lies in the middle of its range, every further one at its beginning. -/
def oneDraw : Random.Source := ⟨fun n => if n = 0 then [0, 0x80000000] else [], 0, []⟩

def sparseSession : Session :=
  .new ⟨1000, 50⟩ [⟨"left", "germanium", some 0⟩] [.synthetic "left" sparse] (fun _ => default)
    fun _ => oneDraw

theorem usable_sparse : sparse.Usable :=
  (Synthetic.Config.fault?_eq_none_iff sparse).mp (by decide +kernel)

theorem ofSetup_sparse : ofSetup sparseSetup .builtin (fun _ => default) (fun _ => oneDraw) =
    .ok sparseSession := by
  have hfault : sparseSetup.fault? = none := by decide +kernel
  exact ofSetup_single _ _ hfault rfl rfl rfl usable_sparse rfl

theorem declared_sparse : ∀ p ∈ sparseSession.producers, ∀ c ∈ p.channels,
    ∃ d ∈ sparseSession.detectors, d.channel = some c := by
  intro p hp c hc
  obtain rfl := List.mem_singleton.mp hp
  obtain rfl := List.mem_singleton.mp hc
  exact ⟨_, List.mem_singleton.mpr rfl, rfl⟩

/-- A run that ends after one readout with one hit, before the clock does. -/
theorem run_of_digitizers_sparse :
    let acts : List Act := [.boot 0, .call default none false, .run 0, .run 0, .run 0, .run 0,
      .tick 0 0, .cancel 0, .run 0, .run 0, .run 0, .notice 0 0, .run 0, .run 0, .work 0, .work 0,
      .work 0, .work 0, .run 0, .run 0, .work 0, .run 0, .run 0, .run 0]
    ofSetup sparseSetup .builtin (fun _ => default) (fun _ => oneDraw) = .ok sparseSession ∧
    (∀ p ∈ sparseSession.producers, ∀ c ∈ p.channels,
      ∃ d ∈ sparseSession.detectors, d.channel = some c) ∧
    (∀ a ∈ acts, ∀ i settings, a ≠ .write i settings) ∧ sparseSession.Undisturbed 0 acts ∧
    ∃ s run outcome, sparseSession.after? acts = some s ∧ s.runs[0]? = some run ∧
      run.result? = some (.ok outcome) ∧ outcome.report.eventsOut = 1 ∧
      ∃ received : List Spill, run.sink.calls = received.map .add ++ [.flush, .close] ∧
        outcome.report.decodeErrors = 0 ∧
        (received.flatMap Spill.hits).Pairwise (·.key ≤ ·.key) ∧
        ((stopped received).map fun x =>
          (Hit.onChannel x.channel (received.flatMap Spill.hits)).length).sum =
        (received.flatMap Spill.hits).length := by
  intro acts
  have hends : ((sparseSession.after? acts).bind (·.runs[0]?)).any (fun run =>
      run.worker.all (·.queue == 0) &&
      (run.result?.bind Except.toOption).any (·.report.eventsOut == 1)) = true := by decide +kernel
  have hreads : (sparseSession.readsDuring 0 acts).all (·.draw?.isSome) = true := by decide +kernel
  have hwrite : ∀ a ∈ acts, ∀ i settings, a ≠ .write i settings := by simp [acts]
  have hu : sparseSession.Undisturbed 0 acts := undisturbed_of_spares rfl _
  obtain ⟨run, hends, hrun⟩ := (Option.any_eq_true _ _).mp hends
  obtain ⟨hqueue, hresult⟩ := Bool.and_eq_true_iff.mp hrun
  obtain ⟨s, hacts, hrun⟩ := Option.bind_eq_some_iff.mp hends
  obtain ⟨outcome, hresult, hone⟩ := (Option.any_eq_true _ _).mp hresult
  obtain ⟨result, hresult, hok⟩ := Option.bind_eq_some_iff.mp hresult
  obtain rfl : result = .ok outcome := by
    cases result with
    | error fault => nomatch hok
    | ok x => rw [Option.some.inj hok]
  obtain ⟨w, received, hw, hcalls, herrors, hsorted, -, -, -, hsum⟩ := run_of_digitizers
    ofSetup_sparse declared_sparse hacts hwrite hu hrun hresult
  rw [hw] at hqueue
  have hqueue : w.queue = 0 := beq_iff_eq.mp hqueue
  refine ⟨ofSetup_sparse, declared_sparse, hwrite, hu, s, run, outcome, hacts, hrun, hresult,
    beq_iff_eq.mp hone, received, hcalls, herrors, hsorted, hsum fun a ha => ?_⟩
  rw [hqueue] at ha
  exact List.all_eq_true.mp hreads a ha

/-! ## Runs without a stop -/

/-- The metadata with which the run of the session with one digitizer begins. -/
def sparseInfo : RunInfo := .opening default default sparseSession.detectors sparseSession.snapshot

/-- The metadata with which it ends. -/
def sparseClosing : RunInfo := sparseInfo.closing default sparseSession.snapshot

/-- The merger with which it begins. -/
def sparseMerger : Merger := (Merger.new .empty).withChannels [0]

/-- The session with one digitizer while it makes its run, at the moment at which it began. -/
def sparseRun (phase : Phase) (slot : Polling.Slot Acquisition) (items : List Spill) (taken : Nat)
    (cancelled : Bool) (stage : Run.Stage) (merger : Merger) : Session :=
  { sparseSession with
    producers := [{ Producer.synthetic "left" sparse with status := .booted, slot }]
    phase
    queues := [⟨items, false, [], [], true, taken⟩]
    runs := [⟨default, none, cancelled, false, stage, some ⟨0, merger, .ready, false⟩⟩]
    launches := 1 }

/-- The slot while its task reads out `a`. -/
def reading (a : Synthetic.Acquisition) : Polling.Slot Acquisition :=
  ⟨some 0, true, [⟨0, false, ⟨0, 0, .synthetic a⟩⟩], [], 1⟩

/-- The slot after its task has crashed. -/
def crashed : Polling.Slot Acquisition := ⟨some 0, true, [], [0], 1⟩

/-- The slot after its task has been asked to stop, while it has not noticed yet. -/
def asked (a : Synthetic.Acquisition) : Polling.Slot Acquisition :=
  ⟨none, true, [⟨0, true, ⟨0, 0, .synthetic a⟩⟩], [], 1⟩

def watching : Run.Stage := .running ⟨⟨sparseInfo, 0⟩, [0], 0⟩ ⟨none, 1000, 1000⟩

/-- The stage of the call once it has stopped its digitizer. -/
def leaving : Run.Stage := .draining ⟨⟨⟨sparseInfo, 0⟩, [0], 0⟩, .cancelled, 0⟩ none

/-- What the acquisition sees of the world. -/
def still : Reading := Acquisition.reading ⟨0, 0, .replay (.start "" 0 [])⟩ 0 default

/-- What a call does from its beginning until it watches its digitizer. -/
def openingActs : List Act :=
  [.boot 0, .call default none false, .run 0, .run 0, .run 0, .run 0]

/-- What a call does from when it is cancelled until its queue has to be emptied. -/
def leavingActs : List Act := [.cancel 0, .run 0, .run 0, .run 0, .run 0, .run 0]

/-- What remains to be done once the queue is empty. -/
def closingActs : List Act := [.run 0, .run 0, .work 0, .run 0, .run 0, .run 0]

/-- A run in which `during` happens until it is cancelled, and `k` looks of its worker before its
queue is stopped. -/
def sparseActs (during : List Act) (k : Nat) : List Act :=
  openingActs ++ (during ++ (leavingActs ++ (List.replicate k (.work 0) ++ closingActs)))

/-- A call that is made by these actions returns an outcome. Its sink gets hits, and no statistics
that say that a channel has stopped. Nobody writes settings. -/
def StopsNothing (acts : List Act) : Prop :=
  (∀ a ∈ acts, ∀ i settings, a ≠ .write i settings) ∧
    ∃ (s : Session) (run : Run) (outcome : Outcome) (received : List Spill),
      sparseSession.after? acts = some s ∧ s.runs[0]? = some run ∧
      run.result? = some (.ok outcome) ∧
      run.sink.calls = received.map .add ++ [.flush, .close] ∧
      stopped received = [] ∧ received.flatMap Spill.hits ≠ []

section

variable {phase : Phase} {slot slot' : Polling.Slot Acquisition} {items more : List Spill}
  {taken : Nat} {cancelled : Bool} {stage : Run.Stage} {merger : Merger}
  {a a' : Synthetic.Acquisition} {x : Spill} {during : List Act}

/-! ### The digitizer -/

/-- The call begins and starts its digitizer. -/
theorem sparse_opens : sparseSession.after? openingActs =
    some (sparseRun .running (reading (.start "left" sparse oneDraw)) [.boundary sparseInfo] 0 false
      watching sparseMerger) := by
  have hboot : (Producer.synthetic "left" sparse).boot.2 =
      { Producer.synthetic "left" sparse with status := .booted } := by
    unfold Producer.boot Producer.synthetic Producer.new
    dsimp only
    rw [(Synthetic.Config.fault?_eq_none_iff sparse).mpr usable_sparse]
    rfl
  show (some (sparseSession.setProducer 0 (Producer.synthetic "left" sparse).boot.2)).bind _ = _
  rw [hboot]
  rfl

theorem sparse_tick (h : a.tick? still = some ⟨[x], some a'⟩) :
    (sparseRun phase (reading a) items taken cancelled stage merger).act? (.tick 0 0) =
      some (sparseRun phase (reading a') (items ++ [x]) taken cancelled stage merger) := by
  have hwork : Acquisition.tick? ⟨0, 0, .synthetic a⟩ still =
      some ⟨[x], some ⟨0, 0, .synthetic a'⟩⟩ := by
    unfold Acquisition.tick?
    dsimp only
    rw [h]
    rfl
  exact (act?_tick rfl (Producer.tick?_next rfl hwork)).trans rfl

theorem sparse_crash (h : a.tick? still = none) :
    (sparseRun phase (reading a) items taken cancelled stage merger).act? (.tick 0 0) =
      some (sparseRun phase crashed items taken cancelled stage merger) := by
  have hwork : Acquisition.tick? ⟨0, 0, .synthetic a⟩ still = none := by
    unfold Acquisition.tick?
    dsimp only
    rw [h]
    rfl
  exact (act?_tick rfl (Producer.tick?_crash rfl hwork)).trans rfl

/-- A readout whose hits can be drawn hands them over, and the acquisition goes on. -/
theorem sparse_reads (hconfig : a.config = sparse) (hdraw : a.draw?.isSome = true) :
    ∃ x a', a.tick? still = some ⟨[x], some a'⟩ ∧ (∀ h ∈ a.draws, h ∈ x.hits) ∧
      (∀ c, Merger.stops x c = false) ∧ a'.config = a.config ∧
      a'.spillNumber = a.spillNumber + 1 := by
  have hmax : a.config.maxSpills = none := by rw [hconfig]; rfl
  obtain ⟨x, a', htick, hgives, hstops, hconfig', hnumber⟩ :=
    Synthetic.Acquisition.tick?_unlimited hmax hdraw still
  refine ⟨x, a', htick, fun h hh => ?_, hstops, hconfig', hnumber⟩
  rw [← hgives.content_eq] at hh
  unfold Spill.content at hh
  unfold Spill.hits
  cases hpayload : x.payload with
  | events hits =>
    rw [hpayload] at hh
    exact hh
  | raw buffer =>
    obtain ⟨hraw, -⟩ := hgives.readable buffer hpayload
    rw [hconfig] at hraw
    nomatch hraw

/-- The acquisition is read out until it crashes. By then it has handed over what it drew, and
stopped nothing. -/
theorem sparse_ticks (items : List Spill) (merger : Merger) (hconfig : a.config = sparse) {d : Nat}
    (hd : UInt64.size ≤ (a.spillNumber + d) * a.window) :
    ∃ (n : Nat) (more : List Spill),
      (sparseRun .running (reading a) items 0 false watching merger).after?
        (List.replicate n (.tick 0 0)) =
          some (sparseRun .running crashed (items ++ more) 0 false watching merger) ∧
      (∀ x ∈ more, ∀ c, Merger.stops x c = false) ∧
      ∀ h ∈ a.draws, ∃ x ∈ more, h ∈ x.hits := by
  have hcrash : ∀ {a : Synthetic.Acquisition} (items : List Spill), a.draw? = none →
      (sparseRun .running (reading a) items 0 false watching merger).after? [.tick 0 0] =
        some (sparseRun .running crashed (items ++ []) 0 false watching merger) := by
    intro a items hnone
    show ((sparseRun .running (reading a) items 0 false watching merger).act? _).bind _ = _
    rw [sparse_crash (Synthetic.Acquisition.tick?_eq_none hnone still), List.append_nil]
    rfl
  induction d generalizing a items with
  | zero =>
    have hnone := Synthetic.Acquisition.draw?_late hd
    refine ⟨1, [], hcrash items hnone, nofun, fun h hh => ?_⟩
    unfold Synthetic.Acquisition.draws at hh
    rw [hnone] at hh
    nomatch hh
  | succ d ih =>
    cases hdraw : a.draw? with
    | none =>
      refine ⟨1, [], hcrash items hdraw, nofun, fun h hh => ?_⟩
      unfold Synthetic.Acquisition.draws at hh
      rw [hdraw] at hh
      nomatch hh
    | some drawn =>
      obtain ⟨x, a', htick, hhits, hstops, hconfig', hnumber⟩ :=
        sparse_reads hconfig (Option.isSome_iff_exists.mpr ⟨_, hdraw⟩)
      have hd' : UInt64.size ≤ (a'.spillNumber + d) * a'.window := by
        have hwindow : a'.window = a.window := by
          unfold Synthetic.Acquisition.window
          rw [hconfig']
        rw [hwindow, hnumber, Nat.add_right_comm]
        exact hd
      obtain ⟨n, more, hafter, hnone, -⟩ := ih (items ++ [x]) (hconfig'.trans hconfig) hd'
      refine ⟨n + 1, x :: more, ?_, List.forall_mem_cons.mpr ⟨hstops, hnone⟩, fun h hh =>
        ⟨x, List.mem_cons_self, hhits h hh⟩⟩
      show ((sparseRun .running (reading a) items 0 false watching merger).act? _).bind _ = _
      rw [sparse_tick htick, Option.bind_some, hafter, List.append_assoc]
      rfl

/-- Somebody asks the digitizer to stop. -/
theorem sparse_ask : (sparseRun phase (reading a) items taken cancelled stage merger).act? (.ask 0) =
    some (sparseRun phase (asked a) items taken cancelled stage merger) := rfl

/-! ### The call -/

/-- The call is cancelled and sees that its digitizer has crashed. -/
theorem sparse_leaves_crashed :
    (sparseRun .running crashed items taken false watching merger).after? leavingActs =
    some (sparseRun .draining ⟨none, false, [], [], 1⟩ (items ++ [.boundary sparseClosing]) taken
      true leaving merger) := rfl

/-- The call is cancelled and does not wait for a digitizer that somebody else has asked to stop. -/
theorem sparse_leaves_asked :
    (sparseRun .running (asked a) items taken false watching merger).after? leavingActs =
    some (sparseRun .draining (asked a) (items ++ [.boundary sparseClosing]) taken true leaving
      merger) := rfl

/-- The worker empties the queue. -/
theorem sparse_works :
    (sparseRun phase slot items taken cancelled stage merger).after?
      (List.replicate items.length (.work 0)) =
    some (sparseRun phase slot [] (taken + items.length) cancelled stage
      (merger.pushAll items)) := by
  induction items generalizing taken merger with
  | nil => rfl
  | cons x rest ih =>
    show (some (sparseRun phase slot rest (taken + 1) cancelled stage (merger.push x))).bind _ = _
    rw [Option.bind_some, ih, Nat.add_right_comm]
    rfl

/-- The call ends. -/
theorem sparse_returns (slot : Polling.Slot Acquisition) (taken : Nat) (merger : Merger) :
    ∃ s run outcome,
    (sparseRun .draining slot [] taken true leaving merger).after? closingActs = some s ∧
    s.runs[0]? = some run ∧ run.result? = some (.ok outcome) ∧
    run.sink = merger.finish.sink.close := ⟨_, _, _, rfl, rfl, rfl, rfl⟩

/-- If until the call is cancelled its digitizer hands over hits but stops nothing, and nothing more
comes after that, the call returns without a stop. -/
theorem sparse_stopsNothing (hwrite : ∀ a ∈ during, ∀ i settings, a ≠ .write i settings)
    (hduring : (sparseRun .running (reading (.start "left" sparse oneDraw)) [.boundary sparseInfo] 0
      false watching sparseMerger).after? during =
        some (sparseRun .running slot ([.boundary sparseInfo] ++ more) 0 false watching sparseMerger))
    (hleaves : (sparseRun .running slot ([.boundary sparseInfo] ++ more) 0 false watching
      sparseMerger).after? leavingActs =
        some (sparseRun .draining slot' ([.boundary sparseInfo] ++ more ++ [.boundary sparseClosing])
          0 true leaving sparseMerger))
    (hgoing : ∀ x ∈ more, ∀ c, Merger.stops x c = false) (hhits : ∃ x ∈ more, ∃ h, h ∈ x.hits) :
    StopsNothing (sparseActs during (more.length + 2)) := by
  have hm : sparseMerger.Fresh := (Merger.fresh_new .empty).withChannels [0]
  generalize hspills : [.boundary sparseInfo] ++ more ++ [.boundary sparseClosing] = spills
    at hleaves
  have hlength : spills.length = more.length + 2 := by
    rw [← hspills]
    simp
  obtain ⟨s, run, outcome, hreturns, hrun, hresult, hsink⟩ :=
    sparse_returns slot' (0 + spills.length) (sparseMerger.pushAll spills)
  refine ⟨?_, s, run, outcome, (sparseMerger.pushAll spills).finish.sink.archive.spills, ?_, hrun,
    hresult, ?_, ?_, ?_⟩
  · rintro a ha i settings rfl
    simp only [sparseActs, List.mem_append] at ha
    rcases ha with ha | ha | ha | ha | ha
    · simp [openingActs] at ha
    · exact hwrite _ ha i settings rfl
    · simp [leavingActs] at ha
    · nomatch List.eq_of_mem_replicate ha
    · simp [closingActs] at ha
  · rw [← hlength, sparseActs, after?_append, sparse_opens, Option.bind_some, after?_append,
      hduring, Option.bind_some, after?_append, hleaves, Option.bind_some, after?_append,
      sparse_works, Option.bind_some]
    exact hreturns
  · rw [hsink]
    show (sparseMerger.pushAll spills).finish.sink.calls ++ [.close] = _
    rw [hm.calls_finish rfl spills, List.append_assoc]
    rfl
  · have hnil : stopped ((sparseMerger.pushAll spills).finish.handedSince sparseMerger) = [] := by
      refine Synthetic.stopped_eq_nil hm fun x hx c => ?_
      rw [← hspills] at hx
      rcases List.mem_append.mp hx with hx | hx
      · rcases List.mem_append.mp hx with hx | hx
        · obtain rfl := List.mem_singleton.mp hx
          rfl
        · exact hgoing x hx c
      · obtain rfl := List.mem_singleton.mp hx
        rfl
    exact hnil
  · obtain ⟨x, hx, h, hhx⟩ := hhits
    have harrived : h ∈ sparseMerger.arrivals spills := by
      rw [← hspills]
      refine List.mem_flatMap.mpr ⟨x, List.mem_append_left _ (List.mem_append_right _ hx), ?_⟩
      unfold Merger.decoded Merger.decode
      unfold Spill.hits at hhx
      cases hpayload : x.payload with
      | events hits =>
        rw [hpayload] at hhx
        exact hhx
      | raw buffer =>
        rw [hpayload] at hhx
        nomatch hhx
    have hdelivered : h ∈ Hit.onChannel h.channel
        ((sparseMerger.pushAll spills).finish.deliveredSince sparseMerger) := by
      rw [(hm.tracks_pushAll spills).onChannel_finish (hm.coherent.pushAll spills) h.channel]
      exact Hit.mem_onChannel.mpr ⟨harrived, rfl⟩
    exact List.ne_nil_of_mem (Hit.mem_onChannel.mp hdelivered).1

end

/-- Two runs in which the channel of the digitizer never stops, so that the hits that were handed
over are in no statistics that say so. The one goes on beyond the last tick of the device clock, and
nobody makes up for the last spill of the digitizer that has crashed. In the other no readout
crashes, but somebody else has asked the digitizer to stop: the second request does not wait for
its end, and the last spill finds the queue stopped. -/
theorem stops_miss_hits :
    ofSetup sparseSetup .builtin (fun _ => default) (fun _ => oneDraw) = .ok sparseSession ∧
    (∀ p ∈ sparseSession.producers, ∀ c ∈ p.channels,
      ∃ d ∈ sparseSession.detectors, d.channel = some c) ∧
    (∃ n k : Nat, sparseSession.Undisturbed 0 (sparseActs (List.replicate n (.tick 0 0)) k) ∧
      StopsNothing (sparseActs (List.replicate n (.tick 0 0)) k)) ∧
    (∀ a ∈ sparseSession.readsDuring 0 (sparseActs [.tick 0 0, .ask 0] 3),
      a.draw?.isSome = true) ∧
    StopsNothing (sparseActs [.tick 0 0, .ask 0] 3) := by
  let a : Synthetic.Acquisition := .start "left" sparse oneDraw
  obtain ⟨h, hh⟩ : ∃ h, h ∈ a.draws := by
    have hdraws : a.draws ≠ [] := by decide +kernel
    exact List.exists_mem_of_ne_nil _ hdraws
  refine ⟨ofSetup_sparse, declared_sparse, ?_, ?_, ?_⟩
  · have hend : UInt64.size ≤ (a.spillNumber + 1001) * a.window := by decide
    obtain ⟨n, more, hticks, hgoing, hhits⟩ :=
      sparse_ticks [.boundary sparseInfo] sparseMerger rfl hend
    obtain ⟨x, hx, hhx⟩ := hhits h hh
    refine ⟨n, more.length + 2, undisturbed_of_spares ?_ _, sparse_stopsNothing ?_ hticks
      sparse_leaves_crashed hgoing ⟨x, hx, h, hhx⟩⟩
    · simp [sparseActs, openingActs, leavingActs, closingActs, Act.spares]
    · intro act hact i settings he
      rw [List.eq_of_mem_replicate hact] at he
      nomatch he
  · have hreads : (sparseSession.readsDuring 0 (sparseActs [.tick 0 0, .ask 0] 3)).all
        (·.draw?.isSome) = true := by decide +kernel
    exact List.all_eq_true.mp hreads
  · have hdraw : a.draw?.isSome = true := by
      unfold Synthetic.Acquisition.draws at hh
      cases hdraw : a.draw? with
      | none =>
        rw [hdraw] at hh
        nomatch hh
      | some drawn => rfl
    obtain ⟨x, a', htick, hhits, hstops, -, -⟩ := sparse_reads rfl hdraw
    have hduring : (sparseRun .running (reading a) [.boundary sparseInfo] 0 false watching
        sparseMerger).after? [.tick 0 0, .ask 0] =
          some (sparseRun .running (asked a') ([.boundary sparseInfo] ++ [x]) 0 false watching
            sparseMerger) := by
      show (Session.act? _ _).bind _ = _
      rw [sparse_tick htick, Option.bind_some]
      show (Session.act? _ _).bind _ = _
      rw [sparse_ask]
      rfl
    have hgoing : ∀ y ∈ [x], ∀ c, Merger.stops y c = false := by
      intro y hy
      obtain rfl := List.mem_singleton.mp hy
      exact hstops
    exact sparse_stopsNothing (by simp) hduring sparse_leaves_asked hgoing
      ⟨x, List.mem_singleton.mpr rfl, h, hhits h hh⟩

end ListMode.Session
