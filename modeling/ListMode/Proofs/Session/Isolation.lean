import ListMode.Proofs.Session.Acceptance
import ListMode.Proofs.Session.Repetition

/-!
# Runs do not depend on each other

A session over digitizers and replays in which nobody but the calls starts or stops a producer, and
the calls are made one after the other. However a run ends, with a result or a fault, the next one
finds nothing of it: no task, no producer that seems to run, no spill on its way, and no trace in the
draws of a digitizer with a seed.
-/

namespace ListMode

deriving instance DecidableEq for Synthetic.Config

/-- The settings of a synthetic digitizer. -/
def Device.config? : Device → Option Synthetic.Config
  | .synthetic config => some config
  | _ => none

theorem Device.eq_synthetic {config : Synthetic.Config} (device : Device)
    (h : device.config? = some config) : device = .synthetic config := by
  cases device with
  | synthetic => exact congrArg Device.synthetic (Option.some.inj h)
  | replay | scripted => nomatch h

namespace Session

section

variable {timing : Timing} {detectors : List Detector} {producers : List Producer}
  {clock : Nat → Instant} {entropy : Nat → Random.Source} {acts : List Act} {t : Session}
  {run : Run} {i : Nat}

/-- Once the last call is over, all are. -/
theorem Successive.over_of_last (h : t.Successive) (hlast : t.runs.getLast? = some run)
    (hover : run.isOver = true) : ∀ stage ∈ t.stages, stage.isOver = true := by
  intro stage hstage
  obtain ⟨j, hj⟩ := List.mem_iff_getElem?.mp hstage
  refine Bool.not_eq_false _ ▸ fun hon => ?_
  have hend : j + 1 = t.runs.length := (h.last j stage hj hon).trans (List.length_map _)
  rw [List.getLast?_eq_getElem?, ← hend, Nat.add_sub_cancel] at hlast
  obtain rfl := Option.some.inj ((stages_getElem? hlast).symm.trans hj)
  exact nomatch hon.symm.trans hover

/-- A call that is in, has still to try a producer and has no queue begins. -/
theorem eq_opening {stage : Run.Stage} (hin : stage.isIn = true) (hahead : stage.isAhead i = true)
    (hqueue : stage.queue?.isNone = true) : stage = .opening := by
  cases stage with
  | opening => rfl
  | called => nomatch hin
  | starting => nomatch hqueue
  | _ => nomatch hahead

/-- Runs made one after the other, with nobody else using the producers. When the last call has
returned, with a result or a fault, the session is idle, no producer has a task and none seems to
run. A call that is let in is accepted by every producer that can run, also by one whose acquisition
ended by itself before, so it never fails for want of a producer. Whatever is handed over is produced
in one call, and the sink of a call has received on each channel, in their order, a first part of the
hits and of the statistics produced in this call, and all of them once it is over; so nothing from
any other. And of two runs that start a digitizer with the same settings, seed included, the one that
acquires less acquires a first part of what the other does. -/
theorem runs_isolated (hfresh : ∀ p ∈ producers, p.Fresh)
    (hacts : (new timing detectors producers clock entropy).after? acts = some t)
    (horder : (new timing detectors producers clock entropy).Succession acts) :
    let past := (new timing detectors producers clock entropy).moments acts
    (∀ run result, t.runs.getLast? = some run → run.result? = some result →
      t.phase = .idle ∧ ∀ p ∈ t.producers, p.slot.tasks = [] ∧ p.isRunning = false) ∧
    (∀ (r : Nat) (run run' : Run) (rest : List Act) (t' : Session), t.runs[r]? = some run →
      run.stage = .opening → t.Succession rest → t.after? rest = some t' →
        t'.runs[r]? = some run' →
          (∀ l w, run'.stage = .running l w → l.started = t.runnable) ∧
          (∀ outcome, run'.result? = some (.ok outcome) → outcome.started = t'.names t.runnable) ∧
          run'.result? ≠ some (.error .noProducerStarted)) ∧
    (∀ moment ∈ past, moment.1.handed moment.2 = [] ∨
      ∃ r, ∀ r', produced r' moment = if r' = r then moment.1.handed moment.2 else []) ∧
    (∀ (r : Nat) (run : Run), t.runs[r]? = some run → ∃ sources, run.sink.Receives
      (((producedIn r past).map (·.spill)).map (·.decodedFrom sources)) run.isOver) ∧
    ∀ (i r r' : Nat) (config : Synthetic.Config) (seed : UInt64), config.seed = some seed →
      (∀ device ∈ triedIn r i past ++ triedIn r' i past, device = .synthetic config) →
      (acquiredIn r i past).length ≤ (acquiredIn r' i past).length →
        (acquiredIn r i past).map (·.payload) <+: (acquiredIn r' i past).map (·.payload) := by
  intro past
  have hnew := successive_new timing detectors clock entropy hfresh
  have hlast := hnew.at_end hacts horder
  refine ⟨fun run result hrun hresult => hlast.rest (hlast.over_of_last hrun ?_), ?_,
    produced_once_after hnew hacts horder, ?_, ?_⟩
  · rw [run.isOver_eq, Run.stage_eq_of_result? hresult]
    rfl
  · intro r run run' rest t' hrun hopening horder' ht' hrun'
    obtain ⟨stage, hst, henlists⟩ := enlists_after hlast (hopening ▸ stages_getElem? hrun) ht' horder'
    obtain rfl := Option.some.inj ((stages_getElem? hrun').symm.trans hst)
    refine ⟨fun l w he => ?_, fun outcome he => ?_, fun he => ?_⟩
    · rw [he] at henlists
      exact henlists
    · rw [Run.stage_eq_of_result? he] at henlists
      exact henlists
    · rw [Run.stage_eq_of_result? he] at henlists
      exact henlists rfl
  · exact fun r run hrun => (relays_after hnew rfl hacts horder r run hrun).receives
  · intro i r r' config seed hseed htried hle
    exact acquired_same hnew rfl hacts horder hseed htried hle

end

/-- A digitizer that ends by itself after two readouts, and a replay. The first run is out of time
when the digitizer has ended, the second is cancelled after one readout. -/
theorem runs_isolated_seeded :
    let config : Synthetic.Config := { (default : Synthetic.Config) with
      channels := [3], rate := 20.0, seed := some 7, maxSpills := some 2 }
    let sim := Producer.synthetic "sim" config
    let left := Producer.replay "left" [.events "recorded" [⟨0, 10, 7, .empty⟩]] 5
    let s := new ⟨10, 10⟩ [] [sim, left] (fun _ => default) fun _ => default
    let first : List Act :=
      [.boot 0, .boot 1, .call default (some 10) false, .run 0, .run 0, .run 0, .run 0, .run 0,
        .tick 0 0, .tick 1 0, .tick 0 0, .work 0, .work 0, .work 0, .work 0, .work 0, .work 0,
        .wait 10, .run 0, .run 0, .run 0, .notice 1 0, .work 0, .work 0, .run 0, .run 0, .run 0,
        .run 0, .work 0, .work 0, .run 0, .run 0, .work 0, .run 0, .run 0, .run 0]
    let letIn : List Act := [.call default none false, .run 1]
    let second : List Act :=
      [.run 1, .run 1, .run 1, .run 1, .tick 0 1, .cancel 1, .work 1, .work 1, .work 1, .run 1,
        .run 1, .notice 0 1, .work 1, .work 1, .run 1, .notice 1 1, .work 1, .work 1, .run 1,
        .run 1, .run 1, .run 1, .work 1, .work 1, .run 1, .run 1, .work 1, .run 1, .run 1, .run 1]
    (∃ t, s.after? first = some t ∧ t.phase = .idle ∧
      ∀ p ∈ t.producers, p.slot.tasks = [] ∧ p.isRunning = false) ∧
    (∃ t t' run outcome, s.after? (first ++ letIn) = some t ∧ t.after? second = some t' ∧
      t'.runs[1]? = some run ∧ run.result? = some (.ok outcome) ∧
      outcome.started = t'.names t.runnable) ∧
    ∃ t run, s.after? (first ++ letIn ++ second) = some t ∧ t.runs[1]? = some run ∧
      let past := s.moments (first ++ letIn ++ second)
      (∃ sources, run.sink.Receives (((producedIn 1 past).map (·.spill)).map
        (·.decodedFrom sources)) run.isOver) ∧
      (acquiredIn 1 0 past).length = 1 ∧ (acquiredIn 0 0 past).length = 2 ∧
      (acquiredIn 1 0 past).map (·.payload) <+: (acquiredIn 0 0 past).map (·.payload) := by
  intro config sim left s first letIn second
  have hfresh : ∀ p ∈ [sim, left], p.Fresh := by
    intro p hp
    rcases List.mem_pair.mp hp with rfl | rfl
    · exact ⟨fun _ he => (by cases he), rfl⟩
    · exact ⟨fun _ he => (by cases he), rfl⟩
  have hfirst : s.Succession first ∧ ((s.after? first).any fun t =>
      (t.runs.getLast?.bind Run.result?).isSome) = true := by decide +kernel
  have hsecond : s.Succession (first ++ letIn) ∧ ((s.after? (first ++ letIn)).any fun t =>
      ((t.runs[1]?).any fun run =>
        run.stage.isIn && run.stage.isAhead 0 && run.stage.queue?.isNone) &&
      decide (t.Succession second) && (t.after? second).any fun t' =>
        ((t'.runs[1]?).bind fun run => run.result?.bind Except.toOption).isSome) = true := by
    decide +kernel
  have hboth : s.Succession (first ++ letIn ++ second) ∧
      ((s.after? (first ++ letIn ++ second)).any fun t => (t.runs[1]?).isSome) = true ∧
      (acquiredIn 1 0 (s.moments (first ++ letIn ++ second))).length = 1 ∧
      (acquiredIn 0 0 (s.moments (first ++ letIn ++ second))).length = 2 ∧
      ∀ device ∈ triedIn 1 0 (s.moments (first ++ letIn ++ second)) ++
        triedIn 0 0 (s.moments (first ++ letIn ++ second)),
        device.config? = some config := by decide +kernel
  refine ⟨?_, ?_, ?_⟩
  · obtain ⟨horder, hends⟩ := hfirst
    obtain ⟨t, ht, hends⟩ := (Option.any_eq_true _ _).mp hends
    obtain ⟨result, hends⟩ := Option.isSome_iff_exists.mp hends
    obtain ⟨run, hrun, hresult⟩ := Option.bind_eq_some_iff.mp hends
    exact ⟨t, ht, (runs_isolated hfresh ht horder).1 run result hrun hresult⟩
  · obtain ⟨horder, hready⟩ := hsecond
    obtain ⟨t, ht, hready⟩ := (Option.any_eq_true _ _).mp hready
    obtain ⟨hready, hends⟩ := Bool.and_eq_true_iff.mp hready
    obtain ⟨hopening, horder'⟩ := Bool.and_eq_true_iff.mp hready
    obtain ⟨run, hrun, hopening⟩ := (Option.any_eq_true _ _).mp hopening
    obtain ⟨hopening, hqueue⟩ := Bool.and_eq_true_iff.mp hopening
    obtain ⟨hisIn, hahead⟩ := Bool.and_eq_true_iff.mp hopening
    obtain ⟨t', ht', hends⟩ := (Option.any_eq_true _ _).mp hends
    obtain ⟨outcome, hends⟩ := Option.isSome_iff_exists.mp hends
    obtain ⟨run', hrun', hends⟩ := Option.bind_eq_some_iff.mp hends
    obtain ⟨result, hresult, hok⟩ := Option.bind_eq_some_iff.mp hends
    obtain rfl : result = .ok outcome := by
      cases result with
      | error fault => cases hok
      | ok x => rw [Option.some.inj hok]
    obtain ⟨-, haccepts, -⟩ := runs_isolated hfresh ht horder
    obtain ⟨-, hstarted, -⟩ := haccepts 1 run run' second t' hrun (eq_opening hisIn hahead hqueue)
      (of_decide_eq_true horder') ht' hrun'
    exact ⟨t, t', run', outcome, ht, ht', hrun', hresult, hstarted outcome hresult⟩
  · obtain ⟨horder, hends, hone, htwo, htried⟩ := hboth
    obtain ⟨t, ht, hends⟩ := (Option.any_eq_true _ _).mp hends
    obtain ⟨run, hrun⟩ := Option.isSome_iff_exists.mp hends
    obtain ⟨-, -, -, hreceives, hrepeats⟩ := runs_isolated hfresh ht horder
    refine ⟨t, run, ht, hrun, hreceives 1 run hrun, hone, htwo, ?_⟩
    exact hrepeats 0 1 0 config 7 rfl (fun device hd => device.eq_synthetic (htried device hd))
      (by rw [hone, htwo]; decide)

end Session

end ListMode
