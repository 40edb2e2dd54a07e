import ListMode.Proofs.Merger.Canonical
import ListMode.Proofs.Merger.DrainOrder
import ListMode.Proofs.Record
import ListMode.Proofs.Spill
import ListMode.Proofs.Synthetic.Draws

/-!
# What an acquisition hands over

`Flow` says of the spills of one acquisition that they hold the hits of its readouts, channel by
channel in time order, none after the stop of its channel. `Running` adds what is true while the
acquisition goes on, above all that its triggers count the hits handed over, and `Over` what is true
once it has ended, properly or by a crash.
-/

namespace ListMode.Synthetic

namespace Acquisition

/-- Hits of the next readout, channel by channel. A readout that crashes has none. -/
def draws (a : Acquisition) : List Hit := (a.draw?.map fun d => d.1.flatMap (·.2)).getD []

end Acquisition

/-- Hits of a list of readouts. -/
def generated (reads : List Acquisition) : List Hit := reads.flatMap (·.draws)

theorem generated_append (reads : List Acquisition) (a : Acquisition) :
    generated (reads ++ [a]) = generated reads ++ a.draws := by
  simp [generated]

/-- Where no spill stops a channel, no statistics say that it has stopped. -/
theorem filter_isStop_eq_nil {spills : List Spill} {c : Channel}
    (h : ∀ s ∈ spills, Merger.stops s c = false) :
    (spills.filterMap (Merger.statsOn c)).filter (·.isStop) = [] := by
  refine List.filter_eq_nil_iff.mpr fun x hx hstop => ?_
  obtain ⟨s, hs, hx⟩ := List.mem_filterMap.mp hx
  have hgoing := h s hs
  unfold Merger.stops at hgoing
  unfold Merger.statsOn at hx
  rw [hx, Option.any_some, hstop] at hgoing
  nomatch hgoing

/-! ## One spill -/

namespace Acquisition

section

variable {a a' : Acquisition} {r : Reading} {s : Spill} {hits : List Hit}

/-- The spill names its acquisition, holds `hits`, and has statistics of the acquisition's channels
only. -/
structure Gives (a : Acquisition) (hits : List Hit) (s : Spill) : Prop where
  source_eq : s.source = some a.id
  readable : s.Readable a.config.rawOutput
  content_eq : s.content = hits
  stats : ∀ c x, s.stats.get? c = some x → x.channel = c ∧ c ∈ a.triggers.keys

theorem gives_spill (a : Acquisition) (hits : List Hit) : a.Gives hits (a.spill hits) := by
  unfold spill
  by_cases hraw : a.config.rawOutput = true
  · rw [if_pos hraw]
    refine ⟨rfl, fun buffer hb => ?_, ?_, nofun⟩
    · obtain rfl := Payload.raw.inj hb
      rw [Record.decode?_encode]
      exact ⟨hraw, rfl⟩
    · exact congrArg (Option.getD · []) (Record.decode?_encode hits)
  · rw [if_neg hraw]
    exact ⟨rfl, nofun, rfl, nofun⟩

theorem Gives.withStats (h : a.Gives hits s) {l : List (Snapshot Float)}
    (hl : ∀ x ∈ l, x.channel ∈ a.triggers.keys) : a.Gives hits (l.foldl Spill.withStats s) := by
  constructor
  · rw [Spill.foldl_withStats]
    exact h.source_eq
  · rw [Spill.foldl_withStats]
    exact h.readable
  · rw [Spill.foldl_withStats]
    exact h.content_eq
  · intro c x hx
    rcases Spill.get?_foldl_withStats hx with ⟨hmem, rfl⟩ | hx
    · exact ⟨rfl, hl x hmem⟩
    · exact h.stats c x hx

theorem triggerCount_snapshot (a : Acquisition) (r : Reading) (kind : Snapshot.Kind) (c : Channel) :
    (a.snapshot r kind c).counter? Snapshot.triggerCount =
      some ((a.triggers.get? c).getD 0).toFloat := by
  have hlive : Snapshot.liveTime ≠ Snapshot.triggerCount := by decide
  have hreal : Snapshot.realTime ≠ Snapshot.triggerCount := by decide
  have hdead : Snapshot.deadTime ≠ Snapshot.triggerCount := by decide
  simp [snapshot, Snapshot.withCounter, Snapshot.counter?, KeyMap.get?_insert, hlive, hreal, hdead]

theorem stops_spill (a : Acquisition) (hits : List Hit) {l : List (Snapshot Float)}
    (hl : ∀ x ∈ l, x.isStop = false) (c : Channel) :
    Merger.stops (l.foldl Spill.withStats (a.spill hits)) c = false := by
  unfold Merger.stops
  cases hx : (l.foldl Spill.withStats (a.spill hits)).stats.get? c with
  | none => rfl
  | some x =>
    rcases Spill.get?_foldl_withStats hx with ⟨hmem, -⟩ | hx
    · exact hl x hmem
    · unfold spill at hx
      split at hx <;> nomatch hx

/-- A readout hands over what it draws, and stops no channel. -/
theorem read?_eq_some (h : a.read? r = some (s, a')) :
    ∃ drawn, a.draw? = some (drawn, a') ∧ a.Gives (drawn.flatMap (·.2)) s ∧
      ∀ c, Merger.stops s c = false := by
  obtain ⟨⟨drawn, after⟩, hdraw, h⟩ := Option.bind_eq_some_iff.mp h
  obtain ⟨rfl, rfl⟩ := Prod.mk.inj (Option.some.inj h)
  obtain ⟨hkeys, -⟩ := draw?_eq_some hdraw
  refine ⟨drawn, hdraw, (gives_spill a _).withStats fun x hx => ?_, stops_spill a _ fun x hx => ?_⟩
  · obtain ⟨y, hy, rfl⟩ := List.mem_map.mp hx
    rw [← hkeys]
    exact List.mem_map.mpr ⟨y, hy, rfl⟩
  · obtain ⟨y, -, rfl⟩ := List.mem_map.mp hx
    show ((if a.spillNumber = 0 then .start else .running : Snapshot.Kind) == .stop) = false
    split <;> rfl

/-- A readout that does not crash, of an acquisition without limit, hands over one spill with what
it draws, and stops no channel. -/
theorem tick?_unlimited (hmax : a.config.maxSpills = none) (h : a.draw?.isSome = true)
    (r : Reading) :
    ∃ s a', a.tick? r = some ⟨[s], some a'⟩ ∧ a.Gives a.draws s ∧
      (∀ c, Merger.stops s c = false) ∧ a'.config = a.config ∧
      a'.spillNumber = a.spillNumber + 1 := by
  obtain ⟨⟨drawn, a'⟩, hdraw⟩ := Option.isSome_iff_exists.mp h
  obtain ⟨-, -, -, hconfig, hnumber, -⟩ := draw?_eq_some hdraw
  obtain ⟨s, hread⟩ : ∃ s, a.read? r = some (s, a') := ⟨_, Option.bind_eq_some_iff.mpr
    ⟨_, hdraw, rfl⟩⟩
  obtain ⟨drawn', hdraw', hgives, hstops⟩ := read?_eq_some hread
  obtain ⟨rfl, -⟩ := Prod.mk.inj (Option.some.inj (hdraw.symm.trans hdraw'))
  have hdraws : a.draws = drawn.flatMap (·.2) := by
    unfold draws
    rw [hdraw]
    rfl
  refine ⟨s, a', ?_, hdraws ▸ hgives, hstops, hconfig, hnumber⟩
  have hgoes : a'.isComplete = false := by
    unfold isComplete
    rw [hconfig, hmax]
  unfold tick?
  rw [hread]
  show some (if a'.isComplete = true then _ else _) = _
  rw [if_neg (by rw [hgoes]; exact Bool.false_ne_true)]

/-- A readout that crashes hands over nothing. -/
theorem tick?_eq_none (h : a.draw? = none) (r : Reading) : a.tick? r = none := by
  unfold tick? read?
  rw [h]
  rfl

/-- A readout whose window begins past the last tick of the device clock crashes. -/
theorem draw?_late (h : UInt64.size ≤ a.spillNumber * a.window) : a.draw? = none := by
  have hlate : clock? (a.spillNumber * a.window) = none := if_neg (Nat.not_lt.mpr h)
  unfold draw?
  rw [hlate]
  cases clock? (a.config.interval * ticksPerSecond) with
  | none => rfl
  | some _ => rfl

/-- The last spill has no hits. It stops every channel and counts its triggers. -/
theorem gives_stopSpill (a : Acquisition) (r : Reading) :
    a.Gives [] (a.stopSpill r) ∧ ∀ c ∈ a.triggers.keys, ∃ x, (a.stopSpill r).stats.get? c = some x ∧
      x.isStop = true ∧
      x.counter? Snapshot.triggerCount = some ((a.triggers.get? c).getD 0).toFloat := by
  unfold stopSpill
  rw [← List.foldl_map]
  constructor
  · refine (gives_spill a []).withStats fun x hx => ?_
    obtain ⟨c, hc, rfl⟩ := List.mem_map.mp hx
    exact hc
  · intro c hc
    obtain ⟨x, hx⟩ := Option.isSome_iff_exists.mp (Spill.isSome_foldl_withStats
      (l := a.triggers.keys.map fun c => a.snapshot r .stop c) (s := a.spill []) (c := c)
      (.inl ⟨_, List.mem_map.mpr ⟨c, hc, rfl⟩, rfl⟩))
    refine ⟨x, hx, ?_⟩
    rcases Spill.get?_foldl_withStats hx with ⟨hmem, rfl⟩ | hx
    · obtain ⟨c', -, rfl⟩ := List.mem_map.mp hmem
      exact ⟨rfl, triggerCount_snapshot a r .stop c'⟩
    · unfold spill at hx
      split at hx <;> nomatch hx

end

end Acquisition

/-! ## All spills of an acquisition -/

/-- The spills of the acquisition of digitizer `id` hold the hits of its readouts `reads`. -/
structure Flow (id : String) (config : Config) (spills : List Spill) (reads : List Acquisition) :
    Prop where
  id_eq : ∀ a ∈ reads, a.id = id
  source_eq : ∀ s ∈ spills, s.source = some id
  readable : ∀ s ∈ spills, s.Readable config.rawOutput
  content_eq : spills.flatMap Spill.content = generated reads
  channel_mem : ∀ h ∈ generated reads, h.channel ∈ config.channels
  ordered : ∀ c, (Hit.onChannel c (generated reads)).Pairwise (·.timestamp ≤ ·.timestamp)
  stats : ∀ s ∈ spills, ∀ c x, s.stats.get? c = some x → x.channel = c ∧ c ∈ config.channels
  final : spills.Pairwise fun s later => ∀ h ∈ later.content, Merger.stops s h.channel = false

/-- The acquisition goes on: nothing has stopped, and its triggers count its hits, which lie before
the window of the next readout. -/
structure Running (id : String) (config : Config) (spills : List Spill) (reads : List Acquisition)
    (a : Acquisition) : Prop extends Flow id config spills reads where
  self_id : a.id = id
  self_config : a.config = config
  keys_iff : ∀ c, c ∈ a.triggers.keys ↔ c ∈ config.channels
  triggers_eq : ∀ c, (a.triggers.get? c).getD 0 = (Hit.onChannel c (generated reads)).length
  going : ∀ s ∈ spills, ∀ c, Merger.stops s c = false
  lt : ∀ h ∈ generated reads, h.timestamp.toNat < a.spillNumber * a.window

/-- Every channel has stopped once, and the statistics that say so count its hits. -/
def Complete (config : Config) (spills : List Spill) (reads : List Acquisition) : Prop :=
  ∀ c ∈ config.channels, ∃ x, (spills.filterMap (Merger.statsOn c)).filter (·.isStop) = [x] ∧
    x.counter? Snapshot.triggerCount = some (Hit.onChannel c (generated reads)).length.toFloat

/-- No channel has stopped: there was no readout, or one of them has crashed. -/
def Broken (spills : List Spill) (reads : List Acquisition) : Prop :=
  (∀ s ∈ spills, ∀ c, Merger.stops s c = false) ∧ (reads = [] ∨ ∃ a ∈ reads, a.draw? = none)

/-- The acquisition has ended, or has never begun. -/
structure Over (id : String) (config : Config) (spills : List Spill) (reads : List Acquisition) :
    Prop extends Flow id config spills reads where
  ended : Complete config spills reads ∨ Broken spills reads

section

variable {id : String} {config : Config} {spills : List Spill} {reads : List Acquisition}
  {a a' : Acquisition} {r : Reading} {s : Spill}

theorem flow_nil (id : String) (config : Config) : Flow id config [] [] :=
  ⟨nofun, nofun, nofun, rfl, nofun, fun _ => .nil, nofun, .nil⟩

theorem over_nil (id : String) (config : Config) : Over id config [] [] :=
  ⟨flow_nil id config, .inr ⟨nofun, .inl rfl⟩⟩

/-- A further readout whose hits come after those before, handed over in one more spill. -/
theorem Flow.append (h : Flow id config spills reads) (more : List Acquisition) (hid : a.id = id)
    (hconfig : a.config = config) (hkeys : ∀ c, c ∈ a.triggers.keys ↔ c ∈ config.channels)
    (hmore : ∀ b ∈ more, b.id = id) (hs : a.Gives (generated more) s)
    (hchannel : ∀ x ∈ generated more, x.channel ∈ config.channels)
    (hordered : ∀ c, (Hit.onChannel c (generated more)).Pairwise (·.timestamp ≤ ·.timestamp))
    (hle : ∀ x ∈ generated reads, ∀ y ∈ generated more, x.timestamp ≤ y.timestamp)
    (hgoing : ∀ s ∈ spills, ∀ c, Merger.stops s c = false) :
    Flow id config (spills ++ [s]) (reads ++ more) := by
  have hgenerated : generated (reads ++ more) = generated reads ++ generated more :=
    List.flatMap_append
  constructor
  · intro b hb
    exact (List.mem_append.mp hb).elim (h.id_eq b) (hmore b)
  · intro x hx
    rcases List.mem_append.mp hx with hx | hx
    · exact h.source_eq x hx
    · rw [List.mem_singleton.mp hx, hs.source_eq, hid]
  · intro x hx
    rcases List.mem_append.mp hx with hx | hx
    · exact h.readable x hx
    · rw [List.mem_singleton.mp hx, ← hconfig]
      exact hs.readable
  · rw [List.flatMap_append, List.flatMap_singleton, h.content_eq, hs.content_eq, hgenerated]
  · intro x hx
    rw [hgenerated] at hx
    exact (List.mem_append.mp hx).elim (h.channel_mem x) (hchannel x)
  · intro c
    rw [hgenerated, Hit.onChannel_append]
    refine List.pairwise_append.mpr ⟨h.ordered c, hordered c, fun x hx y hy => ?_⟩
    exact hle x (Hit.mem_onChannel.mp hx).1 y (Hit.mem_onChannel.mp hy).1
  · intro x hx
    rcases List.mem_append.mp hx with hx | hx
    · exact h.stats x hx
    · intro c y hy
      rw [List.mem_singleton.mp hx] at hy
      obtain ⟨hchan, hc⟩ := hs.stats c y hy
      exact ⟨hchan, (hkeys c).mp hc⟩
  · refine List.pairwise_append.mpr ⟨h.final, List.pairwise_singleton _ _, ?_⟩
    intro x hx y _ z _
    exact hgoing x hx z.channel

/-! ## The course of an acquisition -/

theorem running_start (id : String) {config : Config} (source : Random.Source) :
    Running id config [] [] (.start id config source) := by
  have hget := fun c => KeyMap.get?_ofList (config.channels.map (·, 0)) c
  refine ⟨flow_nil id config, rfl, rfl, fun c => ?_, fun c => ?_, nofun, nofun⟩
  · rw [KeyMap.mem_keys_iff]
    constructor
    · rintro ⟨v, hv⟩
      obtain ⟨c', hc', he⟩ := List.mem_map.mp ((hget c).1 v hv)
      rw [← (Prod.mk.inj he).1]
      exact hc'
    · intro hc
      refine Option.isSome_iff_exists.mp ((hget c).2 ?_)
      rw [List.map_map]
      exact List.mem_map.mpr ⟨c, hc, rfl⟩
  · cases hv : (Acquisition.start id config source).triggers.get? c with
    | none => rfl
    | some v =>
      obtain ⟨_, -, he⟩ := List.mem_map.mp ((hget c).1 v hv)
      rw [← (Prod.mk.inj he).2]
      rfl

theorem window_pos (h : a.config = config) (hi : config.interval ≠ 0) : 0 < a.window := by
  unfold Acquisition.window ticksPerMilli
  rw [h]
  omega

/-- A readout that does not crash. -/
theorem Running.read (h : Running id config spills reads a) (hi : config.interval ≠ 0)
    (hr : a.read? r = some (s, a')) : Running id config (spills ++ [s]) (reads ++ [a]) a' := by
  obtain ⟨drawn, hdraw, hgives, hstops⟩ := Acquisition.read?_eq_some hr
  obtain ⟨hkeys, hdrawn, hid, hconfig, hnumber, htriggers⟩ := Acquisition.draw?_eq_some hdraw
  have hnodup : (drawn.map (·.1)).Nodup := by
    rw [hkeys]
    exact a.triggers.nodup_keys
  have hdraws : a.draws = drawn.flatMap (·.2) := by
    unfold Acquisition.draws
    rw [hdraw]
    rfl
  have hone : generated [a] = drawn.flatMap (·.2) := by
    rw [generated, List.flatMap_singleton, hdraws]
  have hsplit : ∀ x ∈ drawn.flatMap (·.2), ∃ c ∈ a.triggers.keys, x.channel = c ∧
      a.spillNumber * a.window ≤ x.timestamp.toNat ∧
      x.timestamp.toNat < a.spillNumber * a.window + max a.window 1 := by
    intro x hx
    obtain ⟨y, hy, hxy⟩ := List.mem_flatMap.mp hx
    refine ⟨y.1, ?_, (hdrawn y hy).channel_eq x hxy, (hdrawn y hy).ge x hxy, (hdrawn y hy).lt x hxy⟩
    rw [← hkeys]
    exact List.mem_map.mpr ⟨y, hy, rfl⟩
  have hwindow := Acquisition.window_of_config_eq hconfig
  have hpos := window_pos h.self_config hi
  have hgenerated : generated (reads ++ [a]) = generated reads ++ drawn.flatMap (·.2) := by
    rw [generated_append, hdraws]
  refine ⟨?_, hid.trans h.self_id, hconfig.trans h.self_config, fun c => ?_, fun c => ?_, ?_, ?_⟩
  · refine h.toFlow.append (a := a) [a] h.self_id h.self_config h.keys_iff
      (fun b hb => List.mem_singleton.mp hb ▸ h.self_id) (hone ▸ hgives) ?_ ?_ ?_ h.going
    · intro x hx
      obtain ⟨c, hc, hxc, -⟩ := hsplit x (hone ▸ hx)
      exact hxc ▸ (h.keys_iff c).mp hc
    · intro c
      rw [hone]
      exact (Acquisition.onChannel_drawn hnodup hdrawn c).ordered
    · intro x hx y hy
      obtain ⟨c, -, -, hge, -⟩ := hsplit y (hone ▸ hy)
      have hlt := h.lt x hx
      rw [UInt64.le_iff_toNat_le]
      omega
  · rw [htriggers, Acquisition.mem_keys_count fun x hx => ?_, h.keys_iff]
    rw [← hkeys]
    exact List.mem_map.mpr ⟨x, hx, rfl⟩
  · rw [htriggers, Acquisition.get?_count hdrawn, h.triggers_eq, hgenerated, Hit.onChannel_append,
      List.length_append]
  · intro x hx c
    rcases List.mem_append.mp hx with hx | hx
    · exact h.going x hx c
    · rw [List.mem_singleton.mp hx]
      exact hstops c
  · intro x hx
    rw [hnumber, hwindow, Nat.add_mul]
    rw [hgenerated] at hx
    rcases List.mem_append.mp hx with hx | hx
    · have := h.lt x hx
      omega
    · obtain ⟨c, -, -, -, hlt⟩ := hsplit x hx
      omega

/-- The end of an acquisition that was asked to stop or is complete. -/
theorem Running.stop (h : Running id config spills reads a) (r : Reading) :
    Over id config (spills ++ [a.stopSpill r]) reads := by
  obtain ⟨hgives, hstats⟩ := a.gives_stopSpill r
  refine ⟨?_, .inl fun c hc => ?_⟩
  · have happend := h.toFlow.append (a := a) [] h.self_id h.self_config h.keys_iff nofun
      hgives nofun (fun _ => .nil) nofun h.going
    rwa [List.append_nil] at happend
  · obtain ⟨x, hx, hstop, hcount⟩ := hstats c ((h.keys_iff c).mpr hc)
    refine ⟨x, ?_, ?_⟩
    · have hbefore : (spills.filterMap (Merger.statsOn c)).filter (·.isStop) = [] :=
        filter_isStop_eq_nil fun s hs => h.going s hs c
      have hlast : [a.stopSpill r].filterMap (Merger.statsOn c) = [x] := by
        simp [Merger.statsOn, hx]
      rw [List.filterMap_append, List.filter_append, hbefore, hlast, List.nil_append,
        List.filter_cons_of_pos hstop, List.filter_nil]
    · rw [hcount, h.triggers_eq]

/-- The end of an acquisition by a crash. -/
theorem Running.crash (h : Running id config spills reads a) (hr : a.draw? = none) :
    Over id config spills (reads ++ [a]) := by
  have hgenerated : generated (reads ++ [a]) = generated reads := by
    rw [generated_append, Acquisition.draws, hr]
    exact List.append_nil _
  refine ⟨⟨?_, h.source_eq, h.readable, ?_, ?_, ?_, h.stats, h.final⟩,
    .inr ⟨h.going, .inr ⟨a, List.mem_concat_self, hr⟩⟩⟩
  · intro b hb
    rcases List.mem_append.mp hb with hb | hb
    · exact h.id_eq b hb
    · rw [List.mem_singleton.mp hb]
      exact h.self_id
  · rw [hgenerated]
    exact h.content_eq
  · rw [hgenerated]
    exact h.channel_mem
  · rw [hgenerated]
    exact h.ordered

theorem read?_eq_none (h : a.read? r = none) : a.draw? = none := by
  unfold Acquisition.read? at h
  cases hd : a.draw? with
  | none => rfl
  | some d =>
    rw [hd] at h
    nomatch h

/-- A readout leads on, or to the end. -/
theorem Running.tick (h : Running id config spills reads a) (hi : config.interval ≠ 0)
    {o : Readout Acquisition} (ho : a.tick? r = some o) :
    match o.next with
    | some a' => Running id config (spills ++ o.spills) (reads ++ [a]) a'
    | none => Over id config (spills ++ o.spills) (reads ++ [a]) := by
  obtain ⟨⟨s, a'⟩, hread, ho⟩ := Option.bind_eq_some_iff.mp ho
  have hnext := h.read hi hread
  obtain rfl := Option.some.inj ho
  by_cases hcomplete : a'.isComplete = true
  · rw [if_pos hcomplete]
    have hstop := hnext.stop r
    rwa [List.append_assoc] at hstop
  · rw [if_neg hcomplete]
    exact hnext

/-- A readout that crashes ends the acquisition. -/
theorem Running.tick_none (h : Running id config spills reads a) (ho : a.tick? r = none) :
    Over id config spills (reads ++ [a]) := by
  apply h.crash
  unfold Acquisition.tick? at ho
  cases hr : a.read? r with
  | none => exact read?_eq_none hr
  | some x =>
    rw [hr] at ho
    nomatch ho

end

end ListMode.Synthetic
