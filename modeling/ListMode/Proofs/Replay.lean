import ListMode.Proofs.Producer.Course
import ListMode.Proofs.Spill

/-!
# What a replay hands over

A replay hands over the first spills of its recording, in order and under its own name, however many
its task gets to before it is asked to stop. The stop adds one more spill, which stops the channels
of just those spills. The task never ends by itself: an exhausted recording only leaves it waiting.
-/

namespace ListMode

theorem Acquisition.tick?_replay {a : Acquisition} {w : Replay.Acquisition}
    (hw : a.work = .replay w) (r : Reading) :
    a.tick? r = some ⟨w.tick.spills, w.tick.next.map fun w => { a with work := .replay w }⟩ := by
  unfold tick?
  rw [hw]

namespace Replay

open Producer (Shared)
open Producer.Shared (Act)

/-- A recorded spill under the name of the replay. -/
def renamed (id : String) (s : Spill) : Spill := { s with source := some id }

/-- Channel `c` occurs in `spills`: some of them have decoded hits or statistics of it. -/
def Occurs (c : Channel) (spills : List Spill) : Prop :=
  ∃ s ∈ spills, (∃ hits, s.payload = .events hits ∧ ∃ h ∈ hits, h.channel = c) ∨
    (s.stats.get? c).isSome = true

/-- The last spill of a replay that has handed over `replayed`. -/
structure Last (id : String) (replayed : List Spill) (s : Spill) : Prop where
  source_eq : s.source = some id
  payload_eq : s.payload = .events []
  run_eq : s.run = none
  detectors_eq : s.detectors = none
  isSome_iff : ∀ c, (s.stats.get? c).isSome = true ↔ Occurs c replayed
  stats : ∀ c x, s.stats.get? c = some x →
    x.channel = c ∧ x.kind = .stop ∧ x.spillNumber = replayed.length

section

variable {id : String} {interval : Nat} {recording replayed spills : List Spill}
  {a : Acquisition} {r : Reading} {s : Spill}

/-! ## Channels -/

theorem occurs_iff {c : Channel} : Occurs c spills ↔ c ∈ spills.flatMap Spill.channels := by
  rw [List.mem_flatMap]
  refine exists_congr fun s => and_congr_right fun _ => ?_
  unfold Spill.channels Spill.hits
  rw [List.mem_append, KeyMap.mem_keys_iff, ← Option.isSome_iff_exists]
  refine or_congr_left ?_
  cases s.payload with
  | events hits =>
    constructor
    · rintro ⟨hits', hh, h, hmem, rfl⟩
      obtain rfl := Payload.events.inj hh
      exact List.mem_map_of_mem hmem
    · intro hc
      obtain ⟨h, hmem, rfl⟩ := List.mem_map.mp hc
      exact ⟨hits, rfl, h, hmem, rfl⟩
  | raw buffer => exact iff_of_false nofun nofun

theorem mem_channels {c : Channel} : c ∈ channels recording ↔ Occurs c recording := by
  have hget := KeyMap.get?_ofList ((recording.flatMap Spill.channels).map (·, ())) c
  rw [occurs_iff]
  unfold channels
  rw [KeyMap.mem_keys_iff]
  constructor
  · rintro ⟨v, hv⟩
    obtain ⟨c', hc', he⟩ := List.mem_map.mp (hget.1 v hv)
    rw [← (Prod.mk.inj he).1]
    exact hc'
  · intro hc
    refine Option.isSome_iff_exists.mp (hget.2 ?_)
    rw [List.map_map]
    exact List.mem_map.mpr ⟨c, hc, rfl⟩

/-- Two ascending lists of the same channels are equal. -/
theorem eq_of_mem_iff {l l' : List Channel} (hl : l.Pairwise (· < ·)) (hl' : l'.Pairwise (· < ·))
    (h : ∀ c, c ∈ l ↔ c ∈ l') : l = l' := by
  have hnodup : ∀ {l : List Channel}, l.Pairwise (· < ·) → l.Nodup :=
    fun hl => hl.imp Int16.ne_of_lt
  refine List.Perm.eq_of_pairwise ?_ hl hl' ((List.perm_ext_iff_of_nodup (hnodup hl)
    (hnodup hl')).mpr h)
  intro x y _ _ hxy hyx
  exact absurd (Int16.lt_trans hxy hyx) Int16.lt_irrefl

theorem Last.keys_eq (h : Last id replayed s) : s.stats.keys = channels replayed := by
  refine eq_of_mem_iff s.stats.pairwise_keys (KeyMap.pairwise_keys _) fun c => ?_
  rw [mem_channels, ← h.isSome_iff, KeyMap.mem_keys_iff]
  exact Option.isSome_iff_exists.symm

/-! ## The course of a replay -/

theorem last_stopSpill (a : Acquisition) (r : Reading) : Last a.id a.replayed (a.stopSpill r) := by
  unfold Acquisition.stopSpill
  rw [← List.foldl_map]
  have hmem : ∀ c x, (((channels a.replayed).map fun channel =>
      (Snapshot.new 0.0 channel .stop r.now).withSpillNumber a.replayed.length).foldl
        Spill.withStats (.events a.id [])).stats.get? c = some x →
      c ∈ channels a.replayed ∧
        x = (Snapshot.new 0.0 c .stop r.now).withSpillNumber a.replayed.length := by
    intro c x hx
    rcases Spill.get?_foldl_withStats hx with ⟨hx, hc⟩ | hx
    · obtain ⟨c', hc', rfl⟩ := List.mem_map.mp hx
      obtain rfl : c' = c := hc
      exact ⟨hc', rfl⟩
    · nomatch hx
  constructor
  case source_eq | payload_eq | run_eq | detectors_eq =>
    rw [Spill.foldl_withStats]
    rfl
  case isSome_iff =>
    intro c
    rw [← mem_channels]
    constructor
    · intro hsome
      obtain ⟨x, hx⟩ := Option.isSome_iff_exists.mp hsome
      exact (hmem c x hx).1
    · exact fun hc => Spill.isSome_foldl_withStats (.inl ⟨_, List.mem_map_of_mem hc, rfl⟩)
  case stats =>
    intro c x hx
    obtain ⟨-, rfl⟩ := hmem c x hx
    exact ⟨rfl, rfl, rfl⟩

/-- The replay goes on after `k` ticks: so many spills of the recording have been handed over, and
the others are to come. -/
structure Underway (id : String) (recording : List Spill) (k : Nat) (spills : List Spill)
    (a : Acquisition) : Prop where
  id_eq : a.id = id
  split : a.replayed ++ a.pending = recording
  length_eq : a.replayed.length = min k recording.length
  spills_eq : spills = a.replayed.map (renamed id)

theorem Underway.replayed_eq {k : Nat} (h : Underway id recording k spills a) :
    a.replayed = recording.take (min k recording.length) := by
  rw [← h.length_eq, ← h.split, List.take_left']
  rfl

/-- A tick hands over the next spill; with none left the replay waits. -/
theorem Underway.tick {k : Nat} (h : Underway id recording k spills a) :
    ∃ a', a.tick.next = some a' ∧ Underway id recording (k + 1) (spills ++ a.tick.spills) a' := by
  obtain ⟨hid, hsplit, hlength, hspills⟩ := h
  unfold Acquisition.tick
  cases hpending : a.pending with
  | nil =>
    refine ⟨a, rfl, hid, hsplit, ?_, by rw [List.append_nil]; exact hspills⟩
    rw [hpending, List.append_nil] at hsplit
    rw [hsplit] at hlength ⊢
    omega
  | cons s rest =>
    refine ⟨_, rfl, hid, ?_, ?_, ?_⟩
    · rw [← hsplit, hpending, List.append_assoc]
      rfl
    · have hlong := congrArg List.length hsplit
      rw [hpending, List.length_append, List.length_cons] at hlong
      rw [List.length_append, List.length_singleton]
      omega
    · rw [hspills, List.map_append, hid]
      rfl

/-- What a replay has handed over, wherever it stands. -/
def Stands (id : String) (recording : List Spill) (k : Nat) (spills : List Spill) :
    ListMode.Acquisition.Standing → Prop
  | .going a => ∃ w, a.work = .replay w ∧ Underway id recording k spills w
  | .stopped => ∃ last, Last id (recording.take (min k recording.length)) last ∧
      spills = (recording.take (min k recording.length)).map (renamed id) ++ [last]
  | .complete | .crashed => False

theorem stands_of_course {first : ListMode.Acquisition} {k : Nat}
    {standing : ListMode.Acquisition.Standing}
    (hfirst : first.work = .replay (.start id interval recording))
    (h : first.Course k spills standing) : Stands id recording k spills standing := by
  induction h with
  | begins => exact ⟨_, hfirst, rfl, rfl, (Nat.zero_min _).symm, rfl⟩
  | goesOn h ho hnext ih =>
    obtain ⟨w, hw, hunderway⟩ := ih
    obtain ⟨w', hw', hunderway'⟩ := hunderway.tick
    rw [ListMode.Acquisition.tick?_replay hw] at ho
    obtain rfl := Option.some.inj ho
    rw [hw'] at hnext
    obtain rfl := Option.some.inj hnext
    exact ⟨w', rfl, hunderway'⟩
  | completes h ho hnext ih =>
    obtain ⟨w, hw, hunderway⟩ := ih
    obtain ⟨w', hw', -⟩ := hunderway.tick
    rw [ListMode.Acquisition.tick?_replay hw] at ho
    obtain rfl := Option.some.inj ho
    rw [hw'] at hnext
    nomatch hnext
  | crashes h ho ih =>
    obtain ⟨w, hw, -⟩ := ih
    rw [ListMode.Acquisition.tick?_replay hw] at ho
    nomatch ho
  | stops r h ih =>
    obtain ⟨w, hw, hunderway⟩ := ih
    have hlast := last_stopSpill w r
    rw [hunderway.id_eq, hunderway.replayed_eq] at hlast
    refine ⟨_, hlast, ?_⟩
    unfold ListMode.Acquisition.stopSpill
    rw [hw, ← hunderway.replayed_eq, hunderway.spills_eq]

/-! ## In every interleaving -/

variable {before acts : List Act} {s₀ s₁ : Shared} {l : Launch}

/-- A replay keeps its recording, whatever is written to it. -/
theorem device_after {s s' : Shared} {settings : Tree}
    (hdevice : s.producer.device = .replay recording interval settings)
    (hacts : s.after? acts = some s') :
    ∃ settings, s'.producer.device = .replay recording interval settings := by
  induction acts generalizing s settings with
  | nil =>
    obtain rfl := Option.some.inj hacts
    exact ⟨settings, hdevice⟩
  | cons a rest ih =>
    obtain ⟨⟨handed, s₁⟩, ha, hrest⟩ := Option.bind_eq_some_iff.mp hacts
    have hreal : ∀ x, s.producer.device ≠ .scripted x := by
      rw [hdevice]
      exact fun x => nofun
    rcases (Shared.turn_of_act hreal ha).2.device_eq with hkept | ⟨settings', hwritten⟩
    · exact ih (hkept.trans hdevice) hrest
    · have hnew : s₁.producer.device = .replay recording interval settings' := by
        rw [hwritten, Producer.write, hdevice]
      exact ih hnew hrest

/-- In whatever order ticks and a stop reach its task, a replay hands over the first `k` spills of
the recording, unchanged but for their source. Its task ends only when it has been asked to stop, and
then one spill follows that stops the channels which occur in just those `k` spills. The channels
of the producer are those which occur in the recording, so these are among them, and all of them
when the recording was exhausted. -/
theorem spills_of_replay
    (hbefore : (Shared.mk (Producer.replay id recording interval) []).after? before = some s₀)
    (hstart : (s₀.producer.start l).1 = true) (hacts : s₀.after? (.start l :: acts) = some s₁) :
    let n := s₀.producer.slot.started
    let k := min (acts.countP (·.isTick n)) recording.length
    let spills := s₀.handedBy n (.start l :: acts)
    let known := s₁.producer.channels
    ((s₁.producer.slot.task? n).isSome = true ∧
        spills = (recording.take k).map (renamed id) ∨
      s₁.producer.slot.task? n = none ∧ s₀.AskedDuring n (.start l :: acts) ∧
        ∃ last, spills = (recording.take k).map (renamed id) ++ [last] ∧
          Last id (recording.take k) last ∧ last.stats.keys ⊆ known ∧
          (k = recording.length → last.stats.keys = known)) ∧
    known.Pairwise (· < ·) ∧ ∀ c, c ∈ known ↔ Occurs c recording := by
  intro n k spills known
  obtain ⟨settings, hdevice⟩ := device_after
    (s := ⟨Producer.replay id recording interval, []⟩) rfl hbefore
  have hid : s₀.producer.id = id := (Shared.kept_after
    (Producer.real_replay id recording interval) Polling.Slot.numbered_empty hbefore).1
  have hfirst : s₀.producer.acquisition? l =
      some ⟨l.queue, l.time, .replay (.start id interval recording)⟩ := by
    unfold Producer.acquisition?
    rw [hdevice, hid]
  obtain ⟨standing, hcourse, hshows⟩ := Shared.course_of_start
    (Producer.real_replay id recording interval) rfl hbefore hfirst hstart hacts
  have hstands := stands_of_course rfl hcourse
  have hknown : known = channels recording := by
    obtain ⟨settings', hdevice'⟩ := device_after hdevice hacts
    show s₁.producer.channels = _
    rw [Producer.channels, hdevice']
  refine ⟨?_, hknown ▸ KeyMap.pairwise_keys _, fun c => hknown ▸ mem_channels⟩
  cases standing with
  | going a =>
    obtain ⟨w, -, hunderway⟩ := hstands
    obtain ⟨t, ht, -⟩ := hshows
    refine .inl ⟨by rw [ht]; rfl, ?_⟩
    rw [← hunderway.replayed_eq]
    exact hunderway.spills_eq
  | stopped =>
    obtain ⟨last, hlast, hspills⟩ := hstands
    obtain ⟨hgone, hasked⟩ := hshows
    refine .inr ⟨hgone, hasked, last, hspills, hlast, fun c hc => ?_, fun hall => ?_⟩
    · rw [hlast.keys_eq, mem_channels] at hc
      rw [hknown, mem_channels]
      obtain ⟨s, hs, hcs⟩ := hc
      exact ⟨s, List.mem_of_mem_take hs, hcs⟩
    · rw [hknown, hlast.keys_eq]
      congr 1
      exact List.take_of_length_le (Nat.le_of_eq hall.symm)
  | complete | crashed => exact hstands.elim

end

/-- A recording of two spills. -/
def twoSpills : List Spill :=
  [.events "recorded" [⟨3, 10, 7, .empty⟩], .events "recorded" [⟨1, 20, 7, .empty⟩]]

/-- A replay that is stopped between the two spills of its recording, and one that has been waiting
at its end. -/
theorem spills_of_replay_two_spills :
    let s₀ : Shared := ⟨(Producer.replay "left" twoSpills 5).boot.2, []⟩
    let l : Launch := ⟨0, 0, default⟩
    let cut : List Act := [.tick 0 5 default, .stop 7 false, .notice 0 7 default]
    let exhausted : List Act := [.tick 0 5 default, .tick 0 10 default, .stop 20 false,
      .notice 0 20 default]
    (Shared.mk (Producer.replay "left" twoSpills 5) []).after? [.boot] = some s₀ ∧
    (s₀.producer.start l).1 = true ∧
    ∀ acts ∈ [cut, exhausted], (∃ s₁, s₀.after? (.start l :: acts) = some s₁) ∧
      ∃ last, s₀.handedBy 0 (.start l :: acts) =
          (twoSpills.take (acts.countP (·.isTick 0))).map (renamed "left") ++ [last] ∧
        Last "left" (twoSpills.take (acts.countP (·.isTick 0))) last := by
  intro s₀ l cut exhausted
  have hbefore : (Shared.mk (Producer.replay "left" twoSpills 5) []).after? [.boot] = some s₀ := rfl
  have hstart : (s₀.producer.start l).1 = true := by decide
  refine ⟨hbefore, hstart, fun acts hacts => ?_⟩
  have hends : ∀ acts ∈ [cut, exhausted], (s₀.after? (.start l :: acts)).any (fun s₁ =>
      (s₁.producer.slot.task? 0).isNone &&
      decide (acts.countP (·.isTick 0) ≤ twoSpills.length)) = true := by decide +kernel
  obtain ⟨s₁, hs₁, hgone⟩ := (Option.any_eq_true _ _).mp (hends acts hacts)
  obtain ⟨hgone, hcount⟩ := Bool.and_eq_true_iff.mp hgone
  refine ⟨⟨s₁, hs₁⟩, ?_⟩
  have hnumber : s₀.producer.slot.started = 0 := rfl
  have hall := spills_of_replay hbefore hstart hs₁
  rw [hnumber] at hall
  obtain ⟨⟨halive, -⟩ | ⟨-, -, last, hspills, hlast, -⟩, -⟩ := hall
  · rw [Option.isNone_iff_eq_none.mp hgone] at halive
    nomatch halive
  · rw [Nat.min_eq_left (of_decide_eq_true hcount)] at hspills hlast
    exact ⟨last, hspills, hlast⟩

end Replay

end ListMode
