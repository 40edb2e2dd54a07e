import ListMode.Proofs.Session.Protocol

/-!
# Completed runs

A call for a run that returns an outcome has gone through the whole protocol, whatever happened in
between. Its sink was told the opening boundary first and the closing boundary last, was flushed
after that and closed in the end, and what its producers handed over is in between.
-/

namespace ListMode.Session

section

variable {timing : Timing} {detectors : List Detector} {producers : List Producer}
  {clock : Nat → Instant} {entropy : Nat → Random.Source}

theorem invariant_new (hp : ∀ p ∈ producers, p.Made) (origin : Origin) (r : Nat) :
    Invariant origin r [] (new timing detectors producers clock entropy) := by
  have hget : ∀ (i : Nat) (p : Producer), producers[i]? = some p → p.Made :=
    fun i p h => hp p (List.mem_of_getElem? h)
  refine ⟨⟨fun i p h => (hget i p h).real, ?_, ?_, ?_⟩, (List.forall_mem_nil _), ?_⟩
  · rintro n i k ⟨p, h, t, ht, -⟩
    rw [(hget i p h).tasks_eq] at ht
    cases ht
  · intro r run n h
    cases h
  · intro r r' run run' n h
    cases h
  · intro run h
    cases h

/-- What the sink of a settled run was told, and what its report says. -/
theorem Settled.told {origin : Origin} {handed : List Delivery} {id : RunId} {outcome : Outcome}
    {w : Worker} {opening closing : RunInfo}
    (h : Settled origin handed id outcome w opening closing)
    (horigin : ∀ m, origin.names outcome.started m → m.Fresh ∧ m.sink = .empty)
    (hpast : ∀ d ∈ handed, d.spill.run = none) :
    ∃ (first : Spill) (middle : List Spill) (last : Spill),
      w.merger.sink.calls = (first :: middle ++ [last]).map .add ++ [.flush, .close] ∧
      first.hits = [] ∧ first.run = some opening ∧ (∀ s ∈ middle, s.run = none) ∧
      last.run = some { closing with totalEvents := outcome.report.eventsOut } ∧
      outcome.report.eventsOut = ((first :: middle ++ [last]).flatMap Spill.hits).length ∧
      outcome.report.spillsIn = (into w.queue handed).length + 2 := by
  obtain ⟨m, hnames, hmerger⟩ := h.merger_eq
  obtain ⟨hm, hsink⟩ := horigin m hnames
  have hopening : opening.isClosing = false := by
    obtain ⟨now, detectors, settings, rfl⟩ := h.opens
    rfl
  have hclosing : closing.isClosing = true := by
    obtain ⟨now, settings, rfl⟩ := h.closes
    rfl
  have hmid : ∀ s ∈ into w.queue handed, s.run = none := by
    intro s hs
    obtain ⟨d, hd, rfl⟩ := List.mem_map.mp hs
    exact hpast d (List.mem_filter.mp hd).1
  obtain ⟨first, middle, last, hcalls, hrest⟩ := hm.told hsink hopening hclosing hmid
  refine ⟨first, middle, last, ?_, ?_⟩
  · rw [hmerger]
    exact (congrArg (· ++ [Sink.Call.close]) hcalls).trans (List.append_assoc _ _ _)
  · rw [h.report_eq, hmerger]
    exact hrest

/-- A call for a run that returns an outcome has bracketed the run, if nobody else started or
stopped the producers it was in charge of. The first spill that its sink received is the opening
boundary and has no hits, the last one is the closing boundary, none between them has run metadata,
and then the sink was flushed and closed once each. All that was handed over into the queue of the
run was pushed between the boundaries, and when the queue was stopped nothing was in it. -/
theorem run_bracketed (hp : ∀ p ∈ producers, p.Made) {r : Nat} {acts : List Act} {s : Session}
    {run : Run} {outcome : Outcome}
    (hacts : (new timing detectors producers clock entropy).after? acts = some s)
    (hu : (new timing detectors producers clock entropy).Undisturbed r acts)
    (hrun : s.runs[r]? = some run) (hresult : run.result? = some (.ok outcome)) :
    (∃ (w : Worker) (m : Merger) (enqueued : List Spill) (first : Spill) (middle : List Spill)
        (last : Spill) (opening closing : RunInfo),
      run.worker = some w ∧
      run.sink.calls = (first :: middle ++ [last]).map .add ++ [.flush, .close] ∧
      first.hits = [] ∧ first.run = some opening ∧ opening.isClosing = false ∧
      (∀ x ∈ middle, x.run = none) ∧
      last.run = some closing ∧ closing.isClosing = true ∧
      opening.id = outcome.runId ∧ closing.id = outcome.runId ∧
      closing.totalEvents = outcome.report.eventsOut ∧
      outcome.report.eventsOut = ((first :: middle ++ [last]).flatMap Spill.hits).length ∧
      enqueued = into w.queue ((new timing detectors producers clock entropy).handedDuring acts) ∧
      outcome.report.spillsIn = enqueued.length + 2 ∧
      m.Fresh ∧ m.sink = .empty ∧
      run.sink = (m.pushAll (.boundary opening :: enqueued ++
        [.boundary { closing with totalEvents := 0 }])).finish.sink.close) ∧
    ∀ (before rest : List Act) (t : Session) (call : Run) (e : Ending),
      acts = before ++ .run r :: rest →
      (new timing detectors producers clock entropy).after? before = some t →
      t.runs[r]? = some call → call.stage = .emptied e → (t.queue e.queue).items = [] := by
  let origin : Origin := ⟨fun _ m => m.Fresh ∧ m.sink = .empty, fun _ m => m.Fresh ∧ m.sink = .empty⟩
  have hfits : ∀ t, origin.Fits t := fun t => ⟨t.fresh_merger, fun _ _ hm => hm⟩
  have hnew : Invariant origin r [] (new timing detectors producers clock entropy) :=
    invariant_new hp origin r
  constructor
  · have h := hnew.after hfits hacts hu
    have hstage : run.stage = .returned (.ok outcome) := by
      unfold Run.result? at hresult
      split at hresult
      · rename_i hst
        rw [hst, Option.some.inj hresult]
      · cases hresult
    obtain ⟨⟨w, opening, closing, hw, hsettled⟩, -, -⟩ := (h.upholds run hrun).at_stage hstage
    obtain ⟨first, middle, last, hcalls, hhits, hfirst, hmiddle, hlast, hevents, hin⟩ :=
      hsettled.told (fun _ hm => hm) fun d hd => (h.past d hd).1
    obtain ⟨now, detectors, settings, rfl⟩ := hsettled.opens
    obtain ⟨now', settings', rfl⟩ := hsettled.closes
    obtain ⟨m, ⟨hm, hempty⟩, hmerger⟩ := hsettled.merger_eq
    have hsink : run.sink = w.merger.sink := by
      rw [Run.sink, hw]
    refine ⟨w, m, _, first, middle, last, _, _, hw, ?_, hhits, hfirst, rfl, hmiddle, hlast, rfl,
      hsettled.runId_eq.symm, hsettled.runId_eq.symm, rfl, hevents, rfl, hin, hm, hempty, ?_⟩
    · rw [hsink]
      exact hcalls
    · rw [hsink, hmerger]
      rfl
  · rintro before rest t call e rfl hbefore hcall hstage
    have h := hnew.after hfits hbefore hu.before
    obtain ⟨⟨-, hitems, -⟩, -, -⟩ := (h.upholds call hcall).at_stage hstage
    exact hitems

/-- A replay of one hit, cancelled while it runs. -/
theorem run_bracketed_replay :
    let left := Producer.replay "left" [.events "recorded" [⟨0, 10, 7, .empty⟩]] 5
    let s := new ⟨10, 10⟩ [] [left] (fun _ => default) fun _ => default
    let acts : List Act :=
      [.boot 0, .call default none false, .run 0, .run 0, .run 0, .run 0, .tick 0 0, .work 0,
        .cancel 0, .run 0, .run 0, .run 0, .work 0, .notice 0 0, .run 0, .run 0, .run 0, .wait 10,
        .run 0, .work 0, .work 0, .run 0, .run 0, .work 0, .run 0, .run 0, .run 0]
    left.Made ∧ s.Undisturbed 0 acts ∧ ∃ t run outcome, s.after? acts = some t ∧
      t.runs[0]? = some run ∧ run.result? = some (.ok outcome) ∧ outcome.report.eventsOut = 1 ∧
      ∃ first middle last,
        run.sink.calls = (first :: middle ++ [last]).map .add ++ [.flush, .close] ∧
        ((first :: middle ++ [last]).flatMap Spill.hits).length = 1 := by
  intro left s acts
  have hends : (((s.after? acts).bind (·.runs[0]?)).bind fun run =>
      run.result?.bind Except.toOption).any (·.report.eventsOut == 1) = true := by decide +revert
  have hmade : left.Made := by
    refine .replay "left" _ 5 fun x hx => ?_
    rw [List.mem_singleton.mp hx]
    rfl
  have hall : ∀ p ∈ [left], p.Made := fun p hp => List.mem_singleton.mp hp ▸ hmade
  have hu : s.Undisturbed 0 acts := undisturbed_of_spares rfl s
  obtain ⟨outcome, hends, hone⟩ := (Option.any_eq_true _ _).mp hends
  have hone := beq_iff_eq.mp hone
  obtain ⟨run, hends, hresult⟩ := Option.bind_eq_some_iff.mp hends
  obtain ⟨t, hacts, hrun⟩ := Option.bind_eq_some_iff.mp hends
  obtain ⟨result, hresult, hok⟩ := Option.bind_eq_some_iff.mp hresult
  obtain rfl : result = .ok outcome := by
    cases result with
    | error fault => cases hok
    | ok x => rw [Option.some.inj hok]
  obtain ⟨⟨w, m, enqueued, first, middle, last, opening, closing, -, hcalls, -, -, -, -, -, -, -, -,
    -, hevents, -⟩, -⟩ := run_bracketed hall hacts hu hrun hresult
  exact ⟨hmade, hu, t, run, outcome, hacts, hrun, hresult, hone, first, middle, last, hcalls,
    hevents.symm.trans hone⟩

end

end ListMode.Session
