import Mathlib.Data.List.Perm.Subperm
import ListMode.Proofs.Producer.Course
import ListMode.Proofs.Synthetic.Flow

/-!
# The series of spills of one acquisition

The data spills of an acquisition cover the windows of the device clock one after the other, and
each reports what the channels have counted until then. An acquisition that comes to its end closes
the series with one more spill, without hits, in which every channel has stopped; one that crashes
leaves the series open.
-/

namespace ListMode

theorem Acquisition.tick?_eq_synthetic {a : Acquisition} {w : Synthetic.Acquisition}
    (hw : a.work = .synthetic w) (r : Reading) :
    a.tick? r = (w.tick? r).map fun o =>
      ⟨o.spills, o.next.map fun w => { a with work := .synthetic w }⟩ := by
  unfold tick?
  rw [hw]

namespace Synthetic

/-- The form in which `hits` are handed over. -/
def Config.payload (config : Config) (hits : List Hit) : Payload :=
  if config.rawOutput then .raw (Record.encode hits) else .events hits

/-- Hits of window `k`, counted from zero: channel by channel in ascending order, and those of one
channel in time order. -/
structure Window (config : Config) (k : Nat) (hits : List Hit) : Prop where
  begins : ∀ h ∈ hits, k * (config.interval * ticksPerMilli) ≤ h.timestamp.toNat
  ends : ∀ h ∈ hits, h.timestamp.toNat < (k + 1) * (config.interval * ticksPerMilli)
  channel_mem : ∀ h ∈ hits, h.channel ∈ config.channels
  energy_le : ∀ h ∈ hits, h.energy ≤ config.energyMax
  grouped : hits.Pairwise fun x y =>
    x.channel < y.channel ∨ x.channel = y.channel ∧ x.timestamp ≤ y.timestamp

/-- The spill has statistics of every configured channel and of no other one. They are of one kind,
bear the number of the spill, and count `hits`. -/
structure Reports (config : Config) (kind : Snapshot.Kind) (number : Nat) (hits : List Hit)
    (s : Spill) : Prop where
  isSome_iff : ∀ c, (s.stats.get? c).isSome = true ↔ c ∈ config.channels
  stats : ∀ c x, s.stats.get? c = some x → x.channel = c ∧ x.kind = kind ∧
    x.spillNumber = number ∧
    x.counter? Snapshot.triggerCount = some (Hit.onChannel c hits).length.toFloat

/-- The data spill of window `k`, when the data spills before it have the hits `earlier`. -/
structure Data (id : String) (config : Config) (k : Nat) (earlier : List Hit) (s : Spill) :
    Prop where
  source_eq : s.source = some id
  payload_eq : s.payload = config.payload s.content
  run_eq : s.run = none
  detectors_eq : s.detectors = none
  window : Window config k s.content
  reports : Reports config (if k = 0 then .start else .running) (k + 1) (earlier ++ s.content) s

/-- The data spills of an acquisition, in order. -/
def Series (id : String) (config : Config) (data : List Spill) : Prop :=
  ∀ (k : Nat) (hk : k < data.length),
    Data id config k ((data.take k).flatMap Spill.content) data[k]

/-- The last spill of an acquisition that has handed over `n` data spills with the hits `hits`. -/
structure Last (id : String) (config : Config) (n : Nat) (hits : List Hit) (s : Spill) : Prop where
  source_eq : s.source = some id
  payload_eq : s.payload = config.payload []
  run_eq : s.run = none
  detectors_eq : s.detectors = none
  reports : Reports config .stop n hits s

section

variable {id : String} {config : Config} {data spills : List Spill} {reads : List Acquisition}
  {a a' : Acquisition} {r : Reading} {s : Spill} {hits : List Hit}

/-! ## One spill -/

theorem counter?_withRate (x : Snapshot Float) (rate : Float) (name : String) :
    (x.withRate rate).counter? name = x.counter? name := rfl

/-- What a snapshot says of its channel. -/
theorem snapshot_fields (a : Acquisition) (r : Reading) (kind : Snapshot.Kind) (c : Channel)
    (rate : Float) :
    let x := (a.snapshot r kind c).withRate rate
    x.channel = c ∧ x.kind = kind ∧ x.spillNumber = a.spillNumber ∧
      x.counter? Snapshot.triggerCount = some ((a.triggers.get? c).getD 0).toFloat :=
  ⟨rfl, rfl, rfl, (counter?_withRate _ _ _).trans (a.triggerCount_snapshot r kind c)⟩

/-- Statistics attached to a spill without any. -/
theorem reports_foldl {kind : Snapshot.Kind} {number : Nat} {l : List (Snapshot Float)}
    (hempty : s.stats = ∅) (hkeys : ∀ c, (∃ x ∈ l, x.channel = c) ↔ c ∈ config.channels)
    (hl : ∀ x ∈ l, x.kind = kind ∧ x.spillNumber = number ∧
      x.counter? Snapshot.triggerCount = some (Hit.onChannel x.channel hits).length.toFloat) :
    Reports config kind number hits (l.foldl Spill.withStats s) := by
  have hmem : ∀ c x, (l.foldl Spill.withStats s).stats.get? c = some x →
      x ∈ l ∧ x.channel = c := by
    intro c x hx
    refine (Spill.get?_foldl_withStats hx).resolve_right fun hbefore => ?_
    rw [hempty] at hbefore
    nomatch hbefore
  constructor
  · intro c
    rw [← hkeys]
    constructor
    · intro hsome
      obtain ⟨x, hx⟩ := Option.isSome_iff_exists.mp hsome
      exact ⟨x, hmem c x hx⟩
    · exact fun hx => Spill.isSome_foldl_withStats (.inl hx)
  · intro c x hx
    obtain ⟨hxl, rfl⟩ := hmem c x hx
    exact ⟨rfl, hl x hxl⟩

theorem payload_spill (a : Acquisition) (hits : List Hit) :
    (a.spill hits).payload = a.config.payload hits := by
  unfold Acquisition.spill Config.payload
  split <;> rfl

theorem bare_spill (a : Acquisition) (hits : List Hit) :
    (a.spill hits).source = some a.id ∧ (a.spill hits).stats = ∅ ∧ (a.spill hits).run = none ∧
      (a.spill hits).detectors = none := by
  unfold Acquisition.spill
  split <;> exact ⟨rfl, rfl, rfl, rfl⟩

/-- The hits of one readout lie in its window, channel by channel. -/
theorem window_of_draw? {drawn : List (Channel × List Hit)} (hd : a.draw? = some (drawn, a'))
    (hi : a.config.interval ≠ 0) (hkeys : ∀ c ∈ a.triggers.keys, c ∈ a.config.channels) :
    Window a.config a.spillNumber (drawn.flatMap (·.2)) := by
  obtain ⟨hchannels, hdrawn, -⟩ := Acquisition.draw?_eq_some hd
  have hpos : 0 < a.window := window_pos rfl hi
  have hlast : (a.spillNumber + 1) * a.window = a.spillNumber * a.window + max a.window 1 := by
    rw [Nat.add_mul]
    omega
  have hof : ∀ h ∈ drawn.flatMap (·.2), ∃ y ∈ drawn, h ∈ y.2 := fun h hh => List.mem_flatMap.mp hh
  have hascending : drawn.Pairwise fun x y => x.1 < y.1 := by
    have hsorted := a.triggers.pairwise_keys
    rw [← hchannels] at hsorted
    exact List.pairwise_map.mp hsorted
  constructor
  · intro h hh
    obtain ⟨y, hy, hhy⟩ := hof h hh
    exact (hdrawn y hy).ge h hhy
  · intro h hh
    obtain ⟨y, hy, hhy⟩ := hof h hh
    exact Nat.lt_of_lt_of_eq ((hdrawn y hy).lt h hhy) hlast.symm
  · intro h hh
    obtain ⟨y, hy, hhy⟩ := hof h hh
    rw [(hdrawn y hy).channel_eq h hhy]
    refine hkeys y.1 ?_
    rw [← hchannels]
    exact List.mem_map_of_mem hy
  · intro h hh
    obtain ⟨y, hy, hhy⟩ := hof h hh
    exact (hdrawn y hy).energy_le h hhy
  · rw [List.pairwise_flatMap]
    refine ⟨fun y hy => ?_, ?_⟩
    · refine (hdrawn y hy).ordered.imp_of_mem fun {x z} hx hz hle => .inr ⟨?_, hle⟩
      rw [(hdrawn y hy).channel_eq x hx, (hdrawn y hy).channel_eq z hz]
    · refine hascending.imp_of_mem fun {y z} hy hz hlt x hx w hw => .inl ?_
      rw [(hdrawn y hy).channel_eq x hx, (hdrawn z hz).channel_eq w hw]
      exact hlt

/-! ## One readout after the other -/

theorem Series.append (h : Series id config data)
    (hs : Data id config data.length (data.flatMap Spill.content) s) :
    Series id config (data ++ [s]) := by
  intro k hk
  rw [List.length_append, List.length_singleton] at hk
  by_cases hlast : k = data.length
  · subst hlast
    rw [List.take_left', List.getElem_concat_length]
    · exact hs
    · rfl
    · rfl
  · have hlt : k < data.length := by omega
    rw [List.take_append_of_le_length (Nat.le_of_lt hlt), List.getElem_append_left hlt]
    exact h k hlt

/-- The acquisition goes on, and has handed over `data` in the readouts `reads`. -/
structure Counted (id : String) (config : Config) (data : List Spill) (reads : List Acquisition)
    (a : Acquisition) : Prop extends Running id config data reads a where
  number_eq : a.spillNumber = data.length
  few : a.Able → ∀ c, (a.triggers.get? c).getD 0 ≤ a.spillNumber * a.window
  series : Series id config data

theorem counted_start (id : String) (config : Config) (source : Random.Source) :
    Counted id config [] [] (.start id config source) := by
  have hrunning : Running id config [] [] (.start id config source) := running_start id source
  refine ⟨hrunning, rfl, fun _ c => ?_, fun _ hk => absurd hk (Nat.not_lt_zero _)⟩
  rw [hrunning.triggers_eq]
  exact Nat.zero_le _

/-- What the triggers of a channel count. -/
theorem Counted.triggers_eq_content (h : Counted id config data reads a) (c : Channel) :
    (a.triggers.get? c).getD 0 = (Hit.onChannel c (data.flatMap Spill.content)).length := by
  rw [h.triggers_eq, h.content_eq]

theorem Counted.read (h : Counted id config data reads a) (hi : config.interval ≠ 0)
    (hr : a.read? r = some (s, a')) : Counted id config (data ++ [s]) (reads ++ [a]) a' := by
  have hnext := h.toRunning.read hi hr
  obtain ⟨drawn, hdraw, hgives, -⟩ := Acquisition.read?_eq_some hr
  obtain ⟨hchannels, -, -, hconfig, hnumber, -⟩ := Acquisition.draw?_eq_some hdraw
  have hn : a'.spillNumber = data.length + 1 := by rw [hnumber, h.number_eq]
  have hwindow := Acquisition.window_of_config_eq hconfig
  have hfew : a'.Able → ∀ c, (a'.triggers.get? c).getD 0 ≤ a'.spillNumber * a'.window := by
    intro hable c
    have hable := hable.of_config_eq hconfig.symm
    have hmore := hable.triggers_lt (window_pos h.self_config hi) hdraw c
    have hbefore := h.few hable c
    rw [hnumber, hwindow, Nat.add_mul, Nat.one_mul]
    omega
  refine ⟨hnext, by rw [hn, List.length_append, List.length_singleton], hfew, h.series.append ?_⟩
  obtain ⟨⟨drawn', after⟩, hdraw', hs⟩ := Option.bind_eq_some_iff.mp hr
  obtain ⟨rfl, rfl⟩ := Prod.mk.inj (Option.some.inj (hdraw.symm.trans hdraw'))
  obtain ⟨hs, -⟩ := Prod.mk.inj (Option.some.inj hs)
  obtain ⟨hsource, hempty, hrun, hdetectors⟩ := bare_spill a (drawn.flatMap (·.2))
  have hcount : ∀ c, (a'.triggers.get? c).getD 0 =
      (Hit.onChannel c (data.flatMap Spill.content ++ s.content)).length := by
    intro c
    rw [hnext.triggers_eq, ← hnext.content_eq, List.flatMap_append, List.flatMap_singleton]
  have hcontent := hgives.content_eq
  constructor
  · rw [hgives.source_eq, h.self_id]
  · rw [hcontent, ← hs, Spill.foldl_withStats, ← h.self_config]
    exact payload_spill a _
  · rw [← hs, Spill.foldl_withStats]
    exact hrun
  · rw [← hs, Spill.foldl_withStats]
    exact hdetectors
  · rw [hcontent, ← h.number_eq, ← h.self_config]
    refine window_of_draw? hdraw (h.self_config ▸ hi) fun c hc => ?_
    rw [h.self_config]
    exact (h.keys_iff c).mp hc
  · generalize data.flatMap Spill.content ++ s.content = hits at hcount
    rw [← hs]
    refine reports_foldl hempty (fun c => ?_) fun x hx => ?_
    · rw [← h.keys_iff, ← hchannels, List.mem_map]
      constructor
      · rintro ⟨x, hx, rfl⟩
        obtain ⟨y, hy, rfl⟩ := List.mem_map.mp hx
        exact ⟨y, hy, (snapshot_fields a' r _ y.1 _).1.symm⟩
      · rintro ⟨y, hy, rfl⟩
        exact ⟨_, List.mem_map_of_mem hy, (snapshot_fields a' r _ y.1 _).1⟩
    · obtain ⟨⟨c, hits'⟩, -, rfl⟩ := List.mem_map.mp hx
      obtain ⟨hc, hkind, hnum, htriggers⟩ := snapshot_fields a' r
        (if a.spillNumber = 0 then .start else .running) c (hits'.length.toFloat / a.seconds)
      refine ⟨hkind.trans (by rw [h.number_eq]), hnum.trans hn, htriggers.trans ?_⟩
      rw [hcount c, hc]

/-- The last spill of an acquisition that goes on. -/
theorem Counted.last (h : Counted id config data reads a) (r : Reading) :
    Last id config data.length (data.flatMap Spill.content) (a.stopSpill r) := by
  unfold Acquisition.stopSpill
  rw [← List.foldl_map]
  obtain ⟨hsource, hempty, hrun, hdetectors⟩ := bare_spill a []
  constructor
  · rw [Spill.foldl_withStats, ← h.self_id]
    exact hsource
  · rw [Spill.foldl_withStats, ← h.self_config]
    exact payload_spill a []
  · rw [Spill.foldl_withStats]
    exact hrun
  · rw [Spill.foldl_withStats]
    exact hdetectors
  · refine reports_foldl hempty (fun c => ?_) fun x hx => ?_
    · rw [← h.keys_iff]
      constructor
      · rintro ⟨x, hx, rfl⟩
        obtain ⟨c, hc, rfl⟩ := List.mem_map.mp hx
        exact hc
      · intro hc
        exact ⟨_, List.mem_map_of_mem hc, rfl⟩
    · obtain ⟨c, -, rfl⟩ := List.mem_map.mp hx
      refine ⟨rfl, h.number_eq, (a.triggerCount_snapshot r .stop c).trans ?_⟩
      rw [h.triggers_eq_content c]
      rfl

/-! ## A whole acquisition -/

/-- Where the readouts of a digitizer are limited, the acquisition goes on below the limit. Even a
limit of zero allows one. -/
def Config.Within (config : Config) (n : Nat) : Prop :=
  ∀ most, config.maxSpills = some most → n < max 1 most

/-- What an acquisition that began as `first` has handed over in `k` readouts, wherever it
stands. -/
def Stands (id : String) (config : Config) (first : Acquisition) (k : Nat) (spills : List Spill) :
    ListMode.Acquisition.Standing → Prop
  | .going a => ∃ w reads, a.work = .synthetic w ∧ Counted id config spills reads w ∧
      spills.length = k ∧ config.Within k
  | .complete => ∃ data last, spills = data ++ [last] ∧ Series id config data ∧
      Last id config k (data.flatMap Spill.content) last ∧ data.length = k ∧
      ∃ most, config.maxSpills = some most ∧ k = max 1 most
  | .stopped => ∃ data last, spills = data ++ [last] ∧ Series id config data ∧
      Last id config k (data.flatMap Spill.content) last ∧ data.length = k ∧ config.Within k
  | .crashed => Series id config spills ∧ spills.length + 1 = k ∧
      ¬(first.Able ∧ k * first.window ≤ UInt64.size)

theorem isComplete_of_config (h : a.config = config) :
    a.isComplete = true ↔ ∃ most, config.maxSpills = some most ∧ most ≤ a.spillNumber := by
  unfold Acquisition.isComplete
  rw [h]
  cases config.maxSpills with
  | none => simp
  | some most => simp

/-- A readout that does not crash leads on, or to the end. -/
theorem Counted.tick (h : Counted id config data reads a) (hi : config.interval ≠ 0)
    (hwithin : config.Within data.length) {o : Readout Acquisition} (ho : a.tick? r = some o) :
    ∃ s a', Counted id config (data ++ [s]) (reads ++ [a]) a' ∧
      (o = ⟨[s], some a'⟩ ∧ config.Within (data.length + 1) ∨
        o = ⟨[s, a'.stopSpill r], none⟩ ∧
          ∃ most, config.maxSpills = some most ∧ data.length + 1 = max 1 most) := by
  obtain ⟨⟨s, a'⟩, hread, ho⟩ := Option.bind_eq_some_iff.mp ho
  have hnext := h.read hi hread
  have hnumber : a'.spillNumber = data.length + 1 := by
    rw [hnext.number_eq, List.length_append, List.length_singleton]
  obtain rfl := Option.some.inj ho
  refine ⟨s, a', hnext, ?_⟩
  have hcomplete := isComplete_of_config hnext.self_config
  rw [hnumber] at hcomplete
  by_cases hdone : a'.isComplete = true
  · rw [if_pos hdone]
    obtain ⟨most, hmost, hle⟩ := hcomplete.mp hdone
    have := hwithin most hmost
    exact .inr ⟨rfl, most, hmost, by omega⟩
  · rw [if_neg hdone]
    refine .inl ⟨rfl, fun most hmost => ?_⟩
    have hlt : ¬most ≤ data.length + 1 := fun hle => hdone (hcomplete.mpr ⟨most, hmost, hle⟩)
    omega

/-- Where the configuration bounds the number of hits, the window of a readout that crashes ends
behind the last tick of the device clock. -/
theorem Counted.tick_none (h : Counted id config data reads a) (hi : config.interval ≠ 0)
    {first : Acquisition} (hfirst : first.config = config) (ho : a.tick? r = none) :
    ¬(first.Able ∧ (data.length + 1) * first.window ≤ UInt64.size) := by
  rintro ⟨hable, hend⟩
  have hconfig : a.config = first.config := h.self_config.trans hfirst.symm
  have hwindow := Acquisition.window_of_config_eq hconfig
  have hkeys : a.triggers.keys.length ≤ a.config.channels.length := by
    refine (a.triggers.nodup_keys.subperm fun c hc => ?_).length_le
    rw [h.self_config]
    exact (h.keys_iff c).mp hc
  have hable := hable.of_config_eq hconfig
  have hdraw := hable.draw? hkeys (h.few hable) (window_pos h.self_config hi)
    (by rwa [h.number_eq, hwindow])
  obtain ⟨⟨drawn, a'⟩, hdraw⟩ := Option.isSome_iff_exists.mp hdraw
  unfold Acquisition.tick? Acquisition.read? at ho
  rw [hdraw] at ho
  nomatch ho

/-- Wherever a course has led, this is what was handed over. -/
theorem stands_of_course {first : ListMode.Acquisition} {source : Random.Source} {k : Nat}
    {standing : ListMode.Acquisition.Standing} (hi : config.interval ≠ 0)
    (hfirst : first.work = .synthetic (.start id config source))
    (h : first.Course k spills standing) :
    Stands id config (.start id config source) k spills standing := by
  induction h with
  | begins =>
    exact ⟨_, [], hfirst, counted_start id config source, rfl, fun most _ => by omega⟩
  | goesOn h ho hnext ih =>
    obtain ⟨w, reads, hw, hcounted, rfl, hwithin⟩ := ih
    rw [ListMode.Acquisition.tick?_eq_synthetic hw] at ho
    obtain ⟨o, htick, rfl⟩ := Option.map_eq_some_iff.mp ho
    obtain ⟨s, w', hcounted', ⟨rfl, hwithin'⟩ | ⟨rfl, -⟩⟩ := hcounted.tick hi hwithin htick
    · obtain rfl := Option.some.inj hnext
      exact ⟨w', _, rfl, hcounted', List.length_append, hwithin'⟩
    · nomatch hnext
  | @completes k data a r o h ho hnext ih =>
    obtain ⟨w, reads, hw, hcounted, rfl, hwithin⟩ := ih
    rw [ListMode.Acquisition.tick?_eq_synthetic hw] at ho
    obtain ⟨o, htick, rfl⟩ := Option.map_eq_some_iff.mp ho
    obtain ⟨s, w', hcounted', ⟨rfl, -⟩ | ⟨rfl, hmost⟩⟩ := hcounted.tick hi hwithin htick
    · nomatch hnext
    · have hlength : (data ++ [s]).length = data.length + 1 := List.length_append
      refine ⟨data ++ [s], w'.stopSpill r, (List.append_assoc _ [s] _).symm, hcounted'.series, ?_,
        hlength, hmost⟩
      rw [← hlength]
      exact hcounted'.last r
  | crashes h ho ih =>
    obtain ⟨w, reads, hw, hcounted, rfl, -⟩ := ih
    rw [ListMode.Acquisition.tick?_eq_synthetic hw] at ho
    exact ⟨hcounted.series, rfl, hcounted.tick_none hi rfl (Option.map_eq_none_iff.mp ho)⟩
  | stops r h ih =>
    obtain ⟨w, reads, hw, hcounted, rfl, hwithin⟩ := ih
    refine ⟨_, _, rfl, hcounted.series, ?_, rfl, hwithin⟩
    unfold ListMode.Acquisition.stopSpill
    rw [hw]
    exact hcounted.last r

/-! ## In every interleaving -/

theorem Series.ordered (h : Series id config data) (c : Channel) :
    (Hit.onChannel c (data.flatMap Spill.content)).Pairwise (·.timestamp ≤ ·.timestamp) := by
  unfold Hit.onChannel
  rw [List.filter_flatMap, List.pairwise_flatMap]
  constructor
  · intro s hs
    obtain ⟨k, hk, rfl⟩ := List.mem_iff_getElem.mp hs
    refine ((h k hk).window.grouped.filter _).imp_of_mem fun {x y} hx hy hxy => ?_
    have hx : x.channel = c := of_decide_eq_true (List.mem_filter.mp hx).2
    have hy : y.channel = c := of_decide_eq_true (List.mem_filter.mp hy).2
    rcases hxy with hlt | ⟨-, hle⟩
    · rw [hx, hy] at hlt
      exact absurd hlt Int16.lt_irrefl
    · exact hle
  · -- an earlier window ends before a later one begins
    refine List.pairwise_iff_getElem.mpr fun i j hi hj hij x hx y hy => ?_
    have hend := (h i hi).window.ends x (List.mem_filter.mp hx).1
    have hbegin := (h j hj).window.begins y (List.mem_filter.mp hy).1
    have hnext : (i + 1) * (config.interval * ticksPerMilli) ≤ _ := Nat.mul_le_mul_right _ hij
    rw [UInt64.le_iff_toNat_le]
    omega

open Producer (Shared)
open Producer.Shared (Act)

variable {configured : Config} {before acts : List Act} {s₀ s₁ : Shared} {l : Launch}

/-- An acquisition of a digitizer, begun and followed in any interleaving. -/
theorem stands_of_start
    (hbefore : (Shared.mk (Producer.synthetic id configured) []).after? before = some s₀)
    (hdevice : s₀.producer.device = .synthetic config) (hi : config.interval ≠ 0)
    (hstart : (s₀.producer.start l).1 = true) (hacts : s₀.after? (.start l :: acts) = some s₁) :
    ∃ source standing,
      Stands id config (.start id config source)
        (acts.countP (·.isTick s₀.producer.slot.started))
        (s₀.handedBy s₀.producer.slot.started (.start l :: acts)) standing ∧
      s₁.producer.slot.Shows s₀.producer.slot.started
        (s₀.AskedDuring s₀.producer.slot.started (.start l :: acts)) standing := by
  have hid : s₀.producer.id = id :=
    (Shared.kept_after (Producer.real_synthetic id configured) Polling.Slot.numbered_empty
      hbefore).1
  obtain ⟨source, hfirst⟩ : ∃ source, s₀.producer.acquisition? l =
      some ⟨l.queue, l.time, .synthetic (.start id config source)⟩ := by
    unfold Producer.acquisition?
    rw [hdevice, hid]
    exact ⟨_, rfl⟩
  obtain ⟨standing, hcourse, hshows⟩ :=
    Shared.course_of_start (Producer.real_synthetic id configured) rfl hbefore hfirst hstart hacts
  exact ⟨source, standing, stands_of_course hi rfl hcourse, hshows⟩

/-- The spills of an acquisition are its data spills, and perhaps a last one. -/
theorem Stands.series {first : Acquisition} {k : Nat} {standing : ListMode.Acquisition.Standing}
    (h : Stands id config first k spills standing) :
    ∃ data, Series id config data ∧ (spills = data ∨
      ∃ last, spills = data ++ [last] ∧ Last id config k (data.flatMap Spill.content) last) := by
  cases standing with
  | going a =>
    obtain ⟨w, reads, -, hcounted, -⟩ := h
    exact ⟨spills, hcounted.series, .inl rfl⟩
  | complete | stopped =>
    obtain ⟨data, last, hspills, hseries, hlast, -⟩ := h
    exact ⟨data, hseries, .inr ⟨last, hspills, hlast⟩⟩
  | crashed => exact ⟨spills, h.1, .inl rfl⟩

/-- A last spill has no hits. -/
theorem Last.content_eq {n : Nat} (h : Last id config n hits s) : s.content = [] := by
  unfold Spill.content
  rw [h.payload_eq, Config.payload]
  cases config.rawOutput
  · rfl
  · exact congrArg (Option.getD · []) (Record.decode?_encode [])

/-- A digitizer with two channels and a limit of two readouts. -/
def twoChannels : Config :=
  { (default : Config) with
    channels := [1, 0]
    rate := 10.0
    interval := 100
    rawOutput := true
    maxSpills := some 2 }

/-- One hit for each of two channels in the first readout, none after that. -/
def twoDraws : Random.Source where
  block n := if n = 0 then
    [0, 0x80000000, 0, 0x40000000, 0, 0x80000000, 0x80000000,
      0, 0x80000000, 0, 0x20000000, 0, 0x80000000, 0x40000000] else []
  index := 0
  ahead := []

theorem usable_twoChannels : twoChannels.Usable :=
  (Config.fault?_eq_none_iff twoChannels).mp (by decide +kernel)

theorem boot_twoChannels : (Producer.synthetic "sim" twoChannels).boot.2.device =
    .synthetic twoChannels := by
  obtain ⟨status, hboot⟩ := Producer.boot_eq (Producer.synthetic "sim" twoChannels)
  rw [hboot]
  rfl

theorem moderate_twoChannels : twoChannels.Moderate 3 := by
  constructor <;> decide +kernel

/-- Whatever is drawn, and whoever calls the digitizer meanwhile: the spill numbered `k` (from zero)
of an acquisition holds hits of window `k` only, in the form that was configured. So the hits of a
channel never go back in time, from its first spill to its last. -/
theorem hits_in_windows
    (hbefore : (Shared.mk (Producer.synthetic id configured) []).after? before = some s₀)
    (hdevice : s₀.producer.device = .synthetic config) (husable : config.Usable)
    (hstart : (s₀.producer.start l).1 = true) (hacts : s₀.after? (.start l :: acts) = some s₁) :
    let spills := s₀.handedBy s₀.producer.slot.started (.start l :: acts)
    (∀ (k : Nat) (hk : k < spills.length),
      spills[k].payload = config.payload spills[k].content ∧ Window config k spills[k].content) ∧
    ∀ c, (Hit.onChannel c (spills.flatMap Spill.content)).Pairwise
      (·.timestamp ≤ ·.timestamp) := by
  intro spills
  obtain ⟨source, standing, hstands, -⟩ :=
    stands_of_start hbefore hdevice husable.interval_ne_zero hstart hacts
  obtain ⟨data, hseries, hspills | ⟨last, hspills, hlast⟩⟩ := hstands.series
  · have hall : spills = data := hspills
    rw [hall]
    exact ⟨fun k hk => ⟨(hseries k hk).payload_eq, (hseries k hk).window⟩, hseries.ordered⟩
  · have hall : spills = data ++ [last] := hspills
    have hnone := hlast.content_eq
    rw [hall]
    constructor
    · intro k hk
      rw [List.length_append, List.length_singleton] at hk
      by_cases hk' : k < data.length
      · rw [List.getElem_append_left hk']
        exact ⟨(hseries k hk').payload_eq, (hseries k hk').window⟩
      · obtain rfl : k = data.length := by omega
        rw [List.getElem_concat_length rfl, hnone]
        exact ⟨hlast.payload_eq, nofun, nofun, nofun, nofun, .nil⟩
    · rw [List.flatMap_append, List.flatMap_singleton, hnone, List.append_nil]
      exact hseries.ordered

/-- A digitizer that has counted one hit on each of two channels when it is stopped. -/
theorem hits_in_windows_two_channels :
    let s₀ : Shared := ⟨(Producer.synthetic "sim" twoChannels).boot.2, []⟩
    let l : Launch := ⟨0, 0, twoDraws⟩
    let acts : List Act := [.tick 0 100 default, .stop 150 false, .notice 0 150 default]
    let spills := s₀.handedBy 0 (.start l :: acts)
    (Shared.mk (Producer.synthetic "sim" twoChannels) []).after? [.boot] = some s₀ ∧
    s₀.producer.device = .synthetic twoChannels ∧ twoChannels.Usable ∧
    (s₀.producer.start l).1 = true ∧ (∃ s₁, s₀.after? (.start l :: acts) = some s₁) ∧
    spills.map (·.content.length) = [2, 0] ∧
    (∀ (k : Nat) (hk : k < spills.length), Window twoChannels k spills[k].content) ∧
    ∀ c, (Hit.onChannel c (spills.flatMap Spill.content)).Pairwise
      (·.timestamp ≤ ·.timestamp) := by
  intro s₀ l acts spills
  have hstart : (s₀.producer.start l).1 = true := by decide +kernel
  have hends : (s₀.after? (.start l :: acts)).isSome = true := by decide +kernel
  have hcounts : spills.map (·.content.length) = [2, 0] := by decide +kernel
  obtain ⟨s₁, hacts⟩ := Option.isSome_iff_exists.mp hends
  have hbefore : (Shared.mk (Producer.synthetic "sim" twoChannels) []).after? [.boot] = some s₀ :=
    rfl
  obtain ⟨hwindows, hordered⟩ :=
    hits_in_windows hbefore boot_twoChannels usable_twoChannels hstart hacts
  have hnumber : s₀.producer.slot.started = 0 := by decide +kernel
  rw [hnumber] at hwindows hordered
  exact ⟨hbefore, boot_twoChannels, usable_twoChannels, hstart, ⟨s₁, hacts⟩, hcounts,
    fun k hk => (hwindows k hk).2, hordered⟩

/-- Whatever is drawn, and in whatever order readouts and a stop reach the task: an acquisition of a
digitizer hands over one data spill for each readout, and when its task has ended properly exactly
one last spill after them. Without being asked to stop, the task ends properly only at its limit of
readouts. A task that crashes hands over no last spill; then its configuration allows more hits than
a list can have or than the window has ticks, or none to be drawn, or the readout went past the end
of the device clock. -/
theorem spills_of_acquisition
    (hbefore : (Shared.mk (Producer.synthetic id configured) []).after? before = some s₀)
    (hdevice : s₀.producer.device = .synthetic config) (husable : config.Usable)
    (hstart : (s₀.producer.start l).1 = true) (hacts : s₀.after? (.start l :: acts) = some s₁) :
    let n := s₀.producer.slot.started
    let readouts := acts.countP (·.isTick n)
    let spills := s₀.handedBy n (.start l :: acts)
    let asked := s₀.AskedDuring n (.start l :: acts)
    ∃ data, Series id config data ∧
      ((s₁.producer.slot.task? n).isSome = true ∧ spills = data ∧ data.length = readouts ∧
          config.Within data.length ∨
        s₁.producer.slot.task? n = none ∧ data.length = readouts ∧
          (∃ last, spills = data ++ [last] ∧
            Last id config data.length (data.flatMap Spill.content) last) ∧
          (∀ most, config.maxSpills = some most → data.length ≤ max 1 most) ∧
          (¬asked → ∃ most, config.maxSpills = some most ∧ data.length = max 1 most) ∨
        s₁.producer.slot.task? n = none ∧ spills = data ∧ data.length + 1 = readouts ∧
          ∀ source, ¬((Acquisition.start id config source).Able ∧
            (data.length + 1) * (config.interval * ticksPerMilli) ≤ UInt64.size)) := by
  intro n readouts spills asked
  obtain ⟨source, standing, hstands, hshows⟩ :=
    stands_of_start hbefore hdevice husable.interval_ne_zero hstart hacts
  cases standing with
  | going a =>
    obtain ⟨w, reads, -, hcounted, hlength, hwithin⟩ := hstands
    obtain ⟨t, ht, -⟩ := hshows
    refine ⟨spills, hcounted.series, .inl ⟨by rw [ht]; rfl, rfl, hlength, ?_⟩⟩
    rw [hlength]
    exact hwithin
  | complete =>
    obtain ⟨data, last, hspills, hseries, hlast, hlength, most, hmost, hlimit⟩ := hstands
    rw [← hlength] at hlast hlimit
    refine ⟨data, hseries, .inr (.inl ⟨hshows, hlength, ⟨last, hspills, hlast⟩, ?_, fun _ =>
      ⟨most, hmost, hlimit⟩⟩)⟩
    intro most' hmost'
    obtain rfl := Option.some.inj (hmost.symm.trans hmost')
    exact Nat.le_of_eq hlimit
  | stopped =>
    obtain ⟨data, last, hspills, hseries, hlast, hlength, hwithin⟩ := hstands
    obtain ⟨hgone, hasked⟩ := hshows
    rw [← hlength] at hlast hwithin
    exact ⟨data, hseries, .inr (.inl ⟨hgone, hlength, ⟨last, hspills, hlast⟩,
      fun most hmost => Nat.le_of_lt (hwithin most hmost), fun h => absurd hasked h⟩)⟩
  | crashed =>
    obtain ⟨hseries, hlength, hunable⟩ := hstands
    rw [← hlength] at hunable
    refine ⟨spills, hseries, .inr (.inr ⟨hshows, rfl, hlength, fun source' h => hunable ?_⟩)⟩
    exact ⟨h.1.of_config_eq rfl, h.2⟩

/-- With moderate settings a task whose readouts stay below the end of the device clock does not
crash: when it has ended, one last spill has stopped its channels. -/
theorem stops_of_moderate {t : Nat}
    (hbefore : (Shared.mk (Producer.synthetic id configured) []).after? before = some s₀)
    (hdevice : s₀.producer.device = .synthetic config) (husable : config.Usable)
    (hmoderate : config.Moderate t) (hstart : (s₀.producer.start l).1 = true)
    (hacts : s₀.after? (.start l :: acts) = some s₁)
    (hclock : acts.countP (·.isTick s₀.producer.slot.started) *
      (config.interval * ticksPerMilli) ≤ UInt64.size)
    (hgone : s₁.producer.slot.task? s₀.producer.slot.started = none) :
    ∃ data last, s₀.handedBy s₀.producer.slot.started (.start l :: acts) = data ++ [last] ∧
      Series id config data ∧ Last id config data.length (data.flatMap Spill.content) last := by
  obtain ⟨source, standing, hstands, hshows⟩ :=
    stands_of_start hbefore hdevice husable.interval_ne_zero hstart hacts
  cases standing with
  | going a =>
    obtain ⟨task, htask, -⟩ := hshows
    nomatch hgone.symm.trans htask
  | complete | stopped =>
    obtain ⟨data, last, hspills, hseries, hlast, hlength, -⟩ := hstands
    rw [← hlength] at hlast
    exact ⟨data, last, hspills, hseries, hlast⟩
  | crashed =>
    obtain ⟨-, -, hunable⟩ := hstands
    exact absurd ⟨hmoderate.able, hclock⟩ hunable

/-- A digitizer that reaches its limit of two readouts, and one that is stopped before. -/
theorem spills_of_acquisition_two_channels :
    let s₀ : Shared := ⟨(Producer.synthetic "sim" twoChannels).boot.2, []⟩
    let l : Launch := ⟨0, 0, twoDraws⟩
    let limited : List Act := [.tick 0 100 default, .tick 0 200 default]
    let stopped : List Act := [.tick 0 100 default, .stop 150 false, .notice 0 150 default]
    (Shared.mk (Producer.synthetic "sim" twoChannels) []).after? [.boot] = some s₀ ∧
    s₀.producer.device = .synthetic twoChannels ∧ twoChannels.Usable ∧
    (s₀.producer.start l).1 = true ∧
    ∀ acts ∈ [limited, stopped], (∃ s₁, s₀.after? (.start l :: acts) = some s₁) ∧
      ∃ data last, s₀.handedBy 0 (.start l :: acts) = data ++ [last] ∧
        data.length = acts.countP (·.isTick 0) ∧ Series "sim" twoChannels data ∧
        Last "sim" twoChannels data.length (data.flatMap Spill.content) last ∧
        (acts = limited → ¬s₀.AskedDuring 0 (.start l :: acts) ∧
          twoChannels.maxSpills = some data.length) := by
  intro s₀ l limited stopped
  have hstart : (s₀.producer.start l).1 = true := by decide +kernel
  have hbefore : (Shared.mk (Producer.synthetic "sim" twoChannels) []).after? [.boot] = some s₀ :=
    rfl
  refine ⟨hbefore, boot_twoChannels, usable_twoChannels, hstart, fun acts hacts => ?_⟩
  have hends : ∀ acts ∈ [limited, stopped], (s₀.after? (.start l :: acts)).any (fun s₁ =>
      (s₁.producer.slot.task? 0).isNone) = true := by decide +kernel
  have hearly : ∀ acts ∈ [limited, stopped],
      acts.countP (·.isTick 0) * (twoChannels.interval * ticksPerMilli) ≤ UInt64.size := by
    decide
  obtain ⟨s₁, hs₁, hgone⟩ := (Option.any_eq_true _ _).mp (hends acts hacts)
  refine ⟨⟨s₁, hs₁⟩, ?_⟩
  have hnumber : s₀.producer.slot.started = 0 := by decide +kernel
  have hall := spills_of_acquisition hbefore boot_twoChannels usable_twoChannels hstart hs₁
  rw [hnumber] at hall
  obtain ⟨data, hseries, ⟨halive, -⟩ | ⟨-, hlength, ⟨last, hspills, hlast⟩, -, hlimit⟩ |
    ⟨-, -, hlength, hcrash⟩⟩ := hall
  · rw [Option.isNone_iff_eq_none.mp hgone] at halive
    nomatch halive
  · refine ⟨data, last, hspills, hlength, hseries, hlast, fun hlimited => ?_⟩
    have hnot : ¬s₀.AskedDuring 0 (.start l :: acts) := by
      rw [hlimited]
      rintro (⟨-, hheld, -⟩ | ⟨-, s₁, -, hlater⟩)
      · nomatch (show s₀.producer.slot.held = none by rfl).symm.trans hheld
      · exact Shared.not_askedDuring (by simp [limited, Shared.displaces]) hlater
    obtain ⟨most, hmost, hreached⟩ := hlimit hnot
    obtain rfl : 2 = most := Option.some.inj hmost
    exact ⟨hnot, hmost.trans (congrArg some hreached.symm)⟩
  · refine absurd ⟨Config.Moderate.able moderate_twoChannels, ?_⟩ (hcrash default)
    rw [hlength]
    exact hearly acts hacts

/-- Two digitizers whose settings can be used, and whose task crashes at its first readout: the range
of counts of the one is not finite, and the other has more hits than a list can have. Each looks
alive until it is stopped, and although the stop finds it so no last spill is handed over. -/
theorem crash_without_last_spill :
    let fast (rate : Float) : Config := { (default : Config) with rate, interval := 10000 }
    let s (rate : Float) : Shared := ⟨Producer.synthetic "sim" (fast rate), []⟩
    let acts : List Act := [.boot, .start ⟨0, 0, twoDraws⟩, .tick 0 10000 default,
      .stop 10000 false]
    ∀ rate ∈ [1e308, 1e300],
      (fast rate).fault? = none ∧ (s rate).handedBy 0 acts = [] ∧
      ((s rate).after? acts).map (fun s₁ => (s₁.waiting, (s₁.producer.slot.task? 0).isSome)) =
        some ([(⟨0, true⟩, false)], false) ∧
      (((s rate).after? acts).bind (·.act? (.resume 10000 (⟨0, true⟩, false)))).map (·.1.length) =
        some 0 := by
  intro fast s acts rate hrate
  have hnone : ∀ rate ∈ [1e308, 1e300], ((s rate).handedBy 0 acts).isEmpty = true := by
    decide +kernel
  have husable : ∀ rate ∈ [1e308, 1e300], (fast rate).fault? = none := by decide +kernel
  have hstopped : ∀ rate ∈ [1e308, 1e300],
      ((s rate).after? acts).map (fun s₁ => (s₁.waiting, (s₁.producer.slot.task? 0).isSome)) =
        some ([(⟨0, true⟩, false)], false) ∧
      (((s rate).after? acts).bind (·.act? (.resume 10000 (⟨0, true⟩, false)))).map (·.1.length) =
        some 0 := by decide +kernel
  exact ⟨husable rate hrate, List.isEmpty_iff.mp (hnone rate hrate), hstopped rate hrate⟩

end

end Synthetic

end ListMode
