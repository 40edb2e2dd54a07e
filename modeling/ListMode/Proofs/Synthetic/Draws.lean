import Mathlib.Algebra.Group.Action.Defs
import Mathlib.Algebra.Order.BigOperators.Group.List
import ListMode.Proofs.Hit.Order
import ListMode.Proofs.KeyMap
import ListMode.Proofs.Random.Doubles
import ListMode.Synthetic.Acquisition

/-!
# What one readout draws

The hits that a readout draws for a channel lie in the window of the readout and are in time order,
whatever the draws. Where the configuration bounds the number of hits, a readout crashes only if its
window ends behind the last tick of the device clock.
-/

namespace ListMode.Synthetic

theorem clock?_eq_some {n : Nat} {t : UInt64} (h : clock? n = some t) : t.toNat = n := by
  unfold clock? at h
  split at h
  · obtain rfl := Option.some.inj h
    rw [UInt64.toNat_ofNat']
    exact Nat.mod_eq_of_lt ‹_›
  · nomatch h

theorem clock?_isSome {n : Nat} (h : n < UInt64.size) : (clock? n).isSome = true := by
  unfold clock?
  rw [if_pos h]
  rfl

/-- What holds of each draw holds of all of them. -/
theorem mem_times {α : Type} {P : α → Prop} {f : Random.Source → α × Random.Source}
    (h : ∀ s, P (f s).1) (n : Nat) (s : Random.Source) :
    ∀ x ∈ (Random.Source.times f n s).1, P x := by
  induction n generalizing s with
  | zero => exact List.forall_mem_nil _
  | succ n ih => exact List.forall_mem_cons.mpr ⟨h s, ih (f s).2⟩

namespace Acquisition

section

variable {a after : Acquisition} {channel : Channel} {s s' : Random.Source}

/-! ## The hits of a channel -/

theorem drawHit?_eq_some {offset : Nat} {h : Hit}
    (hd : a.drawHit? channel offset s = some (h, s')) :
    h.channel = channel ∧ h.timestamp.toNat = a.spillNumber * a.window + offset ∧
      h.energy ≤ a.config.energyMax := by
  obtain ⟨t, ht, hd⟩ := Option.bind_eq_some_iff.mp hd
  obtain ⟨rfl, -⟩ := Prod.mk.inj (Option.some.inj hd)
  exact ⟨rfl, clock?_eq_some ht, Random.Source.upTo16_le _ _⟩

/-- Each offset gives one hit of the channel. -/
theorem drawHits?_eq_some {offsets : List Nat} {hits : List Hit}
    (hd : a.drawHits? channel offsets s = some (hits, s')) :
    (∀ h ∈ hits, h.channel = channel ∧ h.energy ≤ a.config.energyMax) ∧
      hits.map (·.timestamp.toNat) = offsets.map (a.spillNumber * a.window + ·) := by
  induction offsets generalizing s hits with
  | nil =>
    obtain ⟨rfl, -⟩ := Prod.mk.inj (Option.some.inj hd)
    exact ⟨List.forall_mem_nil _, rfl⟩
  | cons offset rest ih =>
    obtain ⟨⟨h, s₁⟩, hfirst, hd⟩ := Option.bind_eq_some_iff.mp hd
    obtain ⟨⟨more, s₂⟩, hrest, hd⟩ := Option.bind_eq_some_iff.mp hd
    obtain ⟨rfl, rfl⟩ := Prod.mk.inj (Option.some.inj hd)
    obtain ⟨hc, ht, he⟩ := drawHit?_eq_some hfirst
    obtain ⟨hcs, hts⟩ := ih hrest
    refine ⟨List.forall_mem_cons.mpr ⟨⟨hc, he⟩, hcs⟩, ?_⟩
    rw [List.map_cons, List.map_cons, ht, hts]

/-- Hits of one channel in one readout. -/
structure Drawn (a : Acquisition) (channel : Channel) (hits : List Hit) : Prop where
  channel_eq : ∀ h ∈ hits, h.channel = channel
  ordered : hits.Pairwise (·.timestamp ≤ ·.timestamp)
  ge : ∀ h ∈ hits, a.spillNumber * a.window ≤ h.timestamp.toNat
  lt : ∀ h ∈ hits, h.timestamp.toNat < a.spillNumber * a.window + max a.window 1
  energy_le : ∀ h ∈ hits, h.energy ≤ a.config.energyMax

theorem drawChannel?_eq_some {hits : List Hit}
    (hd : a.drawChannel? channel s = some (hits, s')) : a.Drawn channel hits := by
  obtain ⟨⟨count, s₁⟩, -, hd⟩ := Option.bind_eq_some_iff.mp hd
  obtain ⟨_, -, hd⟩ := Option.bind_eq_some_iff.mp hd
  obtain ⟨hc, ht⟩ := drawHits?_eq_some hd
  have hlt := mem_times (P := (· < max a.window 1))
    (fun s => Random.Source.below_lt (by omega) s) count s₁
  generalize (Random.Source.times (·.below (max a.window 1)) count s₁).1 = offsets at ht hlt
  have hplace : ∀ h ∈ hits, ∃ offset < max a.window 1,
      h.timestamp.toNat = a.spillNumber * a.window + offset := by
    intro h hh
    have hmem : h.timestamp.toNat ∈ hits.map (·.timestamp.toNat) := List.mem_map.mpr ⟨h, hh, rfl⟩
    rw [ht] at hmem
    obtain ⟨offset, hoffset, he⟩ := List.mem_map.mp hmem
    exact ⟨offset, hlt offset (List.mem_mergeSort.mp hoffset), he.symm⟩
  refine ⟨fun h hh => (hc h hh).1, ?_, fun h hh => ?_, fun h hh => ?_, fun h hh => (hc h hh).2⟩
  · have hsorted : (offsets.mergeSort (· ≤ ·)).Pairwise (· ≤ ·) := by
      refine (List.pairwise_mergeSort ?_ ?_ offsets).imp of_decide_eq_true
      · intro x y z hxy hyz
        simp only [decide_eq_true_eq] at hxy hyz ⊢
        omega
      · intro x y
        simp only [Bool.or_eq_true, decide_eq_true_eq]
        omega
    have hmap : (hits.map (·.timestamp.toNat)).Pairwise (· ≤ ·) := by
      rw [ht]
      exact List.pairwise_map.mpr (hsorted.imp fun hxy => by omega)
    exact (List.pairwise_map.mp hmap).imp fun h => UInt64.le_iff_toNat_le.mpr h
  · obtain ⟨offset, -, he⟩ := hplace h hh
    omega
  · obtain ⟨offset, ho, he⟩ := hplace h hh
    omega

/-- The channel has as many hits as were drawn for it. -/
theorem length_drawChannel? {hits : List Hit} (hd : a.drawChannel? channel s = some (hits, s')) :
    ∃ s₁, a.drawCount? s = some (hits.length, s₁) := by
  obtain ⟨⟨count, s₁⟩, hcount, hd⟩ := Option.bind_eq_some_iff.mp hd
  obtain ⟨_, -, hd⟩ := Option.bind_eq_some_iff.mp hd
  have hlength := congrArg List.length (drawHits?_eq_some hd).2
  rw [List.length_map, List.length_map, List.length_mergeSort, Random.Source.length_times]
    at hlength
  exact ⟨s₁, by rw [hcount, hlength]⟩

/-! ## The hits of a readout -/

theorem drawChannels?_eq_some {channels : List Channel} {drawn : List (Channel × List Hit)}
    (hd : a.drawChannels? channels s = some (drawn, s')) :
    drawn.map (·.1) = channels ∧ ∀ x ∈ drawn, a.Drawn x.1 x.2 := by
  induction channels generalizing s drawn with
  | nil =>
    obtain ⟨rfl, -⟩ := Prod.mk.inj (Option.some.inj hd)
    exact ⟨rfl, List.forall_mem_nil _⟩
  | cons channel rest ih =>
    obtain ⟨⟨hits, s₁⟩, hfirst, hd⟩ := Option.bind_eq_some_iff.mp hd
    obtain ⟨⟨more, s₂⟩, hrest, hd⟩ := Option.bind_eq_some_iff.mp hd
    obtain ⟨rfl, rfl⟩ := Prod.mk.inj (Option.some.inj hd)
    obtain ⟨hkeys, hall⟩ := ih hrest
    exact ⟨congrArg (channel :: ·) hkeys,
      List.forall_mem_cons.mpr ⟨drawChannel?_eq_some hfirst, hall⟩⟩

theorem draw?_cases {drawn : List (Channel × List Hit)} (hd : a.draw? = some (drawn, after)) :
    ∃ source, a.drawChannels? a.triggers.keys a.source = some (drawn, source) ∧
      after = { a with
        source
        triggers := count a.triggers drawn
        spillNumber := a.spillNumber + 1 } := by
  obtain ⟨_, -, hd⟩ := Option.bind_eq_some_iff.mp hd
  obtain ⟨_, -, hd⟩ := Option.bind_eq_some_iff.mp hd
  obtain ⟨⟨drawn', source⟩, hdraw, hd⟩ := Option.bind_eq_some_iff.mp hd
  obtain ⟨_, -, hd⟩ := Option.bind_eq_some_iff.mp hd
  obtain ⟨_, -, hd⟩ := Option.bind_eq_some_iff.mp hd
  obtain ⟨rfl, rfl⟩ := Prod.mk.inj (Option.some.inj hd)
  exact ⟨source, hdraw, rfl⟩

/-- What a readout draws, and the acquisition after it. -/
theorem draw?_eq_some {drawn : List (Channel × List Hit)} (hd : a.draw? = some (drawn, after)) :
    drawn.map (·.1) = a.triggers.keys ∧ (∀ x ∈ drawn, a.Drawn x.1 x.2) ∧
      after.id = a.id ∧ after.config = a.config ∧ after.spillNumber = a.spillNumber + 1 ∧
      after.triggers = count a.triggers drawn := by
  obtain ⟨source, hdraw, rfl⟩ := draw?_cases hd
  obtain ⟨hkeys, hall⟩ := drawChannels?_eq_some hdraw
  exact ⟨hkeys, hall, rfl, rfl, rfl, rfl⟩

theorem Drawn.onChannel_eq {hits : List Hit} (h : a.Drawn channel hits) :
    Hit.onChannel channel hits = hits :=
  List.filter_eq_self.mpr fun x hx => decide_eq_true (h.channel_eq x hx)

theorem Drawn.onChannel_eq_nil {hits : List Hit} {c : Channel} (h : a.Drawn channel hits)
    (hc : channel ≠ c) : Hit.onChannel c hits = [] :=
  List.filter_eq_nil_iff.mpr fun x hx he =>
    hc ((h.channel_eq x hx).symm.trans (of_decide_eq_true he))

/-- The hits of one channel stand together. -/
theorem onChannel_flatMap {drawn : List (Channel × List Hit)} (hn : (drawn.map (·.1)).Nodup)
    (hd : ∀ x ∈ drawn, a.Drawn x.1 x.2) (c : Channel) :
    Hit.onChannel c (drawn.flatMap (·.2)) = [] ∨
      ∃ x ∈ drawn, x.1 = c ∧ Hit.onChannel c (drawn.flatMap (·.2)) = x.2 := by
  induction drawn with
  | nil => exact .inl rfl
  | cons x rest ih =>
    obtain ⟨hx, hrest⟩ := List.forall_mem_cons.mp hd
    obtain ⟨hnot, hn⟩ := List.nodup_cons.mp hn
    rw [List.flatMap_cons, Hit.onChannel_append]
    by_cases hc : x.1 = c
    · refine .inr ⟨x, List.mem_cons_self, hc, ?_⟩
      have hnone : Hit.onChannel c (rest.flatMap (·.2)) = [] := by
        rcases ih hn hrest with hnone | ⟨y, hy, hyc, -⟩
        · exact hnone
        · exact absurd (List.mem_map.mpr ⟨y, hy, hyc.trans hc.symm⟩) hnot
      rw [hnone, List.append_nil, ← hc, hx.onChannel_eq]
    · rw [hx.onChannel_eq_nil hc, List.nil_append]
      exact (ih hn hrest).imp_right fun ⟨y, hy, hyc, hall⟩ =>
        ⟨y, List.mem_cons_of_mem x hy, hyc, hall⟩

theorem onChannel_drawn {drawn : List (Channel × List Hit)} (hn : (drawn.map (·.1)).Nodup)
    (hd : ∀ x ∈ drawn, a.Drawn x.1 x.2) (c : Channel) :
    a.Drawn c (Hit.onChannel c (drawn.flatMap (·.2))) := by
  rcases onChannel_flatMap hn hd c with hnone | ⟨x, hx, rfl, hall⟩
  · rw [hnone]
    exact ⟨nofun, .nil, nofun, nofun, nofun⟩
  · rw [hall]
    exact hd x hx

/-- The triggers of a channel grow by its hits. -/
theorem get?_count {drawn : List (Channel × List Hit)} (hd : ∀ x ∈ drawn, a.Drawn x.1 x.2)
    (triggers : KeyMap Channel Nat) (c : Channel) :
    ((count triggers drawn).get? c).getD 0 =
      (triggers.get? c).getD 0 + (Hit.onChannel c (drawn.flatMap (·.2))).length := by
  induction drawn generalizing triggers with
  | nil => rfl
  | cons x rest ih =>
    obtain ⟨hx, hrest⟩ := List.forall_mem_cons.mp hd
    show ((count (triggers.alter x.1 fun n => n.getD 0 + x.2.length) rest).get? c).getD 0 = _
    rw [ih hrest, KeyMap.get?_alter, List.flatMap_cons, Hit.onChannel_append, List.length_append]
    by_cases hc : x.1 = c
    · rw [if_pos hc, ← hc, hx.onChannel_eq, Option.getD_some]
      omega
    · rw [if_neg hc, hx.onChannel_eq_nil hc, List.length_nil]
      omega

/-- The channels that are read out stay the same. -/
theorem mem_keys_count {drawn : List (Channel × List Hit)} {triggers : KeyMap Channel Nat}
    (hd : ∀ x ∈ drawn, x.1 ∈ triggers.keys) (c : Channel) :
    c ∈ (count triggers drawn).keys ↔ c ∈ triggers.keys := by
  induction drawn generalizing triggers with
  | nil => rfl
  | cons x rest ih =>
    obtain ⟨hx, hrest⟩ := List.forall_mem_cons.mp hd
    have hkeys : ∀ k, k ∈ (triggers.alter x.1 fun n => n.getD 0 + x.2.length).keys ↔
        k ∈ triggers.keys := by
      intro k
      rw [KeyMap.mem_keys_iff, KeyMap.get?_alter]
      split
      · rename_i hk
        rw [← hk]
        exact iff_of_true ⟨_, rfl⟩ hx
      · exact KeyMap.mem_keys_iff.symm
    show c ∈ (count (triggers.alter x.1 fun n => n.getD 0 + x.2.length) rest).keys ↔ _
    rw [ih fun y hy => (hkeys y.1).mpr (hrest y hy), hkeys]

/-! ## Readouts that do not crash -/

theorem drawHits?_isSome {offsets : List Nat}
    (h : ∀ offset ∈ offsets, a.spillNumber * a.window + offset < UInt64.size) (s : Random.Source) :
    (a.drawHits? channel offsets s).isSome = true := by
  induction offsets generalizing s with
  | nil => rfl
  | cons offset rest ih =>
    obtain ⟨hfirst, hrest⟩ := List.forall_mem_cons.mp h
    obtain ⟨t, ht⟩ := Option.isSome_iff_exists.mp (clock?_isSome hfirst)
    unfold drawHits? drawHit?
    simp only [ht, Option.bind_eq_bind, Option.bind_some, Option.pure_def]
    obtain ⟨⟨hits, s'⟩, hmore⟩ := Option.isSome_iff_exists.mp
      (ih hrest ((s.chance pileupChance).2.upTo16 a.config.energyMax).2)
    rw [hmore]
    rfl

/-- The clock counts the interval, and whatever is drawn, a list has room for as many hits on every
channel, which are fewer than the ticks of the window. So nothing but the end of the device clock
makes a readout crash. -/
structure Able (a : Acquisition) : Prop where
  interval_lt : a.config.interval * ticksPerSecond < UInt64.size
  count_le : ∀ s, ∃ count s', a.drawCount? s = some (count, s') ∧
    count ≤ mostHits / a.config.channels.length ∧ count < a.window

theorem window_of_config_eq {b : Acquisition} (hb : b.config = a.config) : b.window = a.window := by
  unfold window
  rw [hb]

theorem drawCount?_of_config_eq {b : Acquisition} (hb : b.config = a.config) (s : Random.Source) :
    b.drawCount? s = a.drawCount? s := by
  unfold drawCount? seconds
  rw [hb]

theorem Able.of_config_eq {b : Acquisition} (h : a.Able) (hb : b.config = a.config) : b.Able := by
  refine ⟨hb ▸ h.interval_lt, fun s => ?_⟩
  rw [drawCount?_of_config_eq hb, hb, window_of_config_eq hb]
  exact h.count_le s

theorem Able.drawChannel? (h : a.Able) (hw : 0 < a.window)
    (hend : (a.spillNumber + 1) * a.window ≤ UInt64.size) (channel : Channel) (s : Random.Source) :
    (a.drawChannel? channel s).isSome = true := by
  obtain ⟨count, s₁, hcount, hle, -⟩ := h.count_le s
  have hroom : count ≤ mostOffsets :=
    Nat.le_trans hle (Nat.le_trans (Nat.div_le_self _ _) (by decide))
  have hhits : (a.drawHits? channel ((Random.Source.times (·.below (max a.window 1)) count
      s₁).1.mergeSort (· ≤ ·)) (Random.Source.times (·.below (max a.window 1)) count
      s₁).2).isSome = true := by
    apply drawHits?_isSome
    intro offset hoffset
    have hlt := mem_times (P := (· < max a.window 1))
      (fun s => Random.Source.below_lt (by omega) s) count s₁ offset (List.mem_mergeSort.mp hoffset)
    rw [Nat.add_mul] at hend
    omega
  obtain ⟨hits, hhits⟩ := Option.isSome_iff_exists.mp hhits
  exact Option.isSome_iff_exists.mpr ⟨hits, Option.bind_eq_some_iff.mpr ⟨_, hcount,
    Option.bind_eq_some_iff.mpr ⟨(), if_pos hroom, hhits⟩⟩⟩

theorem Able.drawChannels? (h : a.Able) (hw : 0 < a.window)
    (hend : (a.spillNumber + 1) * a.window ≤ UInt64.size) (channels : List Channel)
    (s : Random.Source) : (a.drawChannels? channels s).isSome = true := by
  induction channels generalizing s with
  | nil => rfl
  | cons channel rest ih =>
    obtain ⟨⟨hits, s₁⟩, hhits⟩ := Option.isSome_iff_exists.mp (h.drawChannel? hw hend channel s)
    obtain ⟨⟨more, s₂⟩, hmore⟩ := Option.isSome_iff_exists.mp (ih s₁)
    exact Option.isSome_iff_exists.mpr ⟨((channel, hits) :: more, s₂), Option.bind_eq_some_iff.mpr
      ⟨_, hhits, Option.bind_eq_some_iff.mpr ⟨_, hmore, rfl⟩⟩⟩

/-- The room that every channel has is enough for what is drawn. -/
theorem Able.length_le (h : a.Able) {channels : List Channel} {drawn : List (Channel × List Hit)}
    (hd : a.drawChannels? channels s = some (drawn, s')) : ∀ x ∈ drawn,
      x.2.length ≤ mostHits / a.config.channels.length ∧ x.2.length < a.window := by
  induction channels generalizing s drawn with
  | nil =>
    obtain ⟨rfl, -⟩ := Prod.mk.inj (Option.some.inj hd)
    exact List.forall_mem_nil _
  | cons channel rest ih =>
    obtain ⟨⟨hits, s₁⟩, hfirst, hd⟩ := Option.bind_eq_some_iff.mp hd
    obtain ⟨⟨more, s₂⟩, hrest, hd⟩ := Option.bind_eq_some_iff.mp hd
    obtain ⟨rfl, rfl⟩ := Prod.mk.inj (Option.some.inj hd)
    obtain ⟨s₃, hlength⟩ := length_drawChannel? hfirst
    obtain ⟨count, s₄, hcount, hle⟩ := h.count_le s
    obtain ⟨rfl, -⟩ := Prod.mk.inj (Option.some.inj (hcount.symm.trans hlength))
    exact List.forall_mem_cons.mpr ⟨hle, ih hrest⟩

/-- A channel has fewer hits in a readout than the window has ticks. -/
theorem Able.length_onChannel (h : a.Able) (hw : 0 < a.window) {channels : List Channel}
    {drawn : List (Channel × List Hit)} (hd : a.drawChannels? channels s = some (drawn, s'))
    (hn : channels.Nodup) (c : Channel) :
    (Hit.onChannel c (drawn.flatMap (·.2))).length < a.window := by
  obtain ⟨hkeys, hall⟩ := drawChannels?_eq_some hd
  rcases onChannel_flatMap (hkeys.symm ▸ hn) hall c with hnone | ⟨x, hx, -, hx'⟩
  · rw [hnone]
    exact hw
  · rw [hx']
    exact (h.length_le hd x hx).2

/-- A readout adds fewer triggers than its window has ticks. -/
theorem Able.triggers_lt (h : a.Able) (hw : 0 < a.window) {drawn : List (Channel × List Hit)}
    (hd : a.draw? = some (drawn, after)) (c : Channel) :
    (after.triggers.get? c).getD 0 < (a.triggers.get? c).getD 0 + a.window := by
  obtain ⟨source, hdrawn, rfl⟩ := draw?_cases hd
  rw [get?_count (drawChannels?_eq_some hdrawn).2]
  exact Nat.add_lt_add_left (h.length_onChannel hw hdrawn a.triggers.nodup_keys c) _

/-- The hits of a readout are as many as the channels together may have. -/
theorem Able.length_drawn (h : a.Able) {channels : List Channel}
    {drawn : List (Channel × List Hit)} (hd : a.drawChannels? channels s = some (drawn, s')) :
    (drawn.flatMap (·.2)).length ≤ channels.length * (mostHits / a.config.channels.length) := by
  have hkeys := congrArg List.length (drawChannels?_eq_some hd).1
  rw [List.length_map] at hkeys
  rw [List.length_flatMap, ← hkeys, ← List.length_map (·.2.length), ← smul_eq_mul]
  refine List.sum_le_card_nsmul _ _ fun n hn => ?_
  obtain ⟨x, hx, rfl⟩ := List.mem_map.mp hn
  exact (h.length_le hd x hx).1

/-- A readout whose window the device clock covers does not crash, as long as there are no more
triggers than ticks. -/
theorem Able.draw? (h : a.Able) (hkeys : a.triggers.keys.length ≤ a.config.channels.length)
    (htriggers : ∀ c, (a.triggers.get? c).getD 0 ≤ a.spillNumber * a.window)
    (hw : 0 < a.window) (hend : (a.spillNumber + 1) * a.window ≤ UInt64.size) :
    a.draw?.isSome = true := by
  rw [Nat.add_mul, Nat.one_mul] at hend
  obtain ⟨_, hinterval⟩ := Option.isSome_iff_exists.mp (clock?_isSome h.interval_lt)
  obtain ⟨_, hwindow⟩ := Option.isSome_iff_exists.mp
    (clock?_isSome (n := a.spillNumber * a.window) (by omega))
  obtain ⟨⟨drawn, source⟩, hdrawn⟩ := Option.isSome_iff_exists.mp
    (h.drawChannels? hw (by rwa [Nat.add_mul, Nat.one_mul]) a.triggers.keys a.source)
  have hroom : (drawn.flatMap (·.2)).length ≤ mostHits :=
    calc (drawn.flatMap (·.2)).length
      _ ≤ a.triggers.keys.length * (mostHits / a.config.channels.length) := h.length_drawn hdrawn
      _ ≤ a.config.channels.length * (mostHits / a.config.channels.length) :=
        Nat.mul_le_mul_right _ hkeys
      _ ≤ mostHits := Nat.mul_div_le _ _
  have hcounts : (a.triggers.keys.all fun c =>
      ((count a.triggers drawn).get? c).getD 0 < UInt64.size) = true := by
    refine List.all_eq_true.mpr fun c _ => decide_eq_true ?_
    have hbefore := htriggers c
    have hmore := h.length_onChannel hw hdrawn a.triggers.nodup_keys c
    rw [get?_count (drawChannels?_eq_some hdrawn).2]
    omega
  exact Option.isSome_iff_exists.mpr ⟨_, Option.bind_eq_some_iff.mpr ⟨_, hinterval,
    Option.bind_eq_some_iff.mpr ⟨_, hwindow, Option.bind_eq_some_iff.mpr ⟨_, hdrawn,
      Option.bind_eq_some_iff.mpr ⟨(), if_pos hroom,
        Option.bind_eq_some_iff.mpr ⟨(), if_pos hcounts, rfl⟩⟩⟩⟩⟩⟩

theorem nearest_le {x : Float} {t : Nat} (h : Random.Within t x.toModel.unpack) :
    nearest x ≤ 2 ^ t + 1 := by
  have hwhole : x.toUInt64.toNat ≤ 2 ^ t := Random.toUInt64_le h
  unfold nearest
  dsimp only
  split <;> omega

end

end Acquisition

/-! ## Moderate rates -/

namespace Config

/-- The largest number that a count is drawn from. -/
def widest (c : Config) : Float := 2.0 * (c.rate * (c.interval.toFloat / 1000.0))

/-- The factor by which fractions become counts. -/
def width (c : Config) : Float :=
  Random.Source.fitScale c.widest 8 (c.widest / Random.Source.largestFraction)

/-- The counts of a readout are drawn from less than `2 ^ t`, so many hits on every channel fit into a
list, and they are fewer than the ticks of the window. It takes no draw to find out. -/
structure Moderate (c : Config) (t : Nat) : Prop where
  interval_lt : c.interval * ticksPerSecond < UInt64.size
  widest_nonneg : 0.0 ≤ c.widest
  widest_finite : (c.widest / Random.Source.largestFraction).isFinite = true
  width_nonneg : 0.0 ≤ c.width
  width_finite : c.width.isFinite = true
  width_lt : c.width.toUInt64.toNat < 2 ^ t
  room : 2 ^ t + 1 ≤ mostHits / c.channels.length
  sparse : 2 ^ t + 1 < c.interval * ticksPerMilli

/-- With moderate settings nothing but the end of the device clock makes a readout crash. -/
theorem Moderate.able {a : Acquisition} {t : Nat} (h : a.config.Moderate t) : a.Able := by
  have ht : t < 58 := by
    have hroom : 2 ^ t + 1 ≤ 2 ^ 58 := h.room.trans (Nat.div_le_self _ _)
    exact (Nat.pow_lt_pow_iff_right (by decide)).mp hroom
  have hwithin : Random.Within t a.config.width.toModel.unpack :=
    Random.within_of_toUInt64_lt h.width_finite (of_decide_eq_true h.width_nonneg) h.width_lt
      (by omega)
  refine ⟨h.interval_lt, fun s => ?_⟩
  obtain ⟨x, s', hx, hbound⟩ := Random.within_upToFloat? h.widest_nonneg h.widest_finite hwithin
    (by omega) s
  have hcount := Acquisition.nearest_le hbound
  exact ⟨Acquisition.nearest x, s', Option.bind_eq_some_iff.mpr ⟨_, hx, rfl⟩,
    hcount.trans h.room, hcount.trans_lt h.sparse⟩

/-- The default settings are moderate: at most some two hundred hits are drawn. -/
theorem moderate_default : (default : Config).Moderate 8 := by
  constructor <;> decide +kernel

end Config

end ListMode.Synthetic
