import Mathlib.Data.List.Forall2
import Mathlib.Data.List.Nodup
import Mathlib.Data.List.Pairwise
import ListMode.Proofs.Setup
import ListMode.Proofs.Synthetic.Settings
import ListMode.Proofs.Synthetic.Weave
import ListMode.Registry
import ListMode.Session.Assembly

/-!
# Sessions of digitizers

The driver of digitizers, which is the one that is always there, builds them with configurations
that can be used. The producers of a setup that is accepted have identifiers of their own, and no
two of them read one channel. What a function here answers is stated once, for any registry, as the
ways in which it can end (`createEach_cases`, `createAll_cases`, `Session.ofSetup_cases`).
-/

namespace ListMode

open Synthetic (Member)

/-! ## Checks -/

namespace Registry

theorem unowned_of_insert {owners : KeyMap Channel String} {channel : Channel} {id : String}
    {l : List (Channel × String)} (h : ∀ x ∈ l, (owners.insert channel id).get? x.1 = none) :
    channel ∉ l.map (·.1) ∧ ∀ x ∈ l, owners.get? x.1 = none := by
  have hunowned : ∀ x ∈ l, channel ≠ x.1 ∧ owners.get? x.1 = none := by
    intro x hx
    have hget := h x hx
    rw [KeyMap.get?_insert] at hget
    split at hget
    · nomatch hget
    · rename_i hne
      exact ⟨hne, hget⟩
  refine ⟨fun hmem => ?_, fun x hx => (hunowned x hx).2⟩
  obtain ⟨x, hx, he⟩ := List.mem_map.mp hmem
  exact (hunowned x hx).1 he.symm

theorem nodup_of_clashIn {owners : KeyMap Channel String} {l : List (Channel × String)}
    (h : clashIn? owners l = none) :
    (l.map (·.1)).Nodup ∧ ∀ x ∈ l, owners.get? x.1 = none := by
  induction l generalizing owners with
  | nil => exact ⟨.nil, nofun⟩
  | cons e rest ih =>
    obtain ⟨channel, id⟩ := e
    unfold clashIn? at h
    cases howner : owners.get? channel with
    | some owner =>
      rw [howner] at h
      nomatch h
    | none =>
      rw [howner] at h
      obtain ⟨hrest, hnew⟩ := ih h
      obtain ⟨hchannel, hunowned⟩ := unowned_of_insert hnew
      exact ⟨List.nodup_cons.mpr ⟨hchannel, hrest⟩, List.forall_mem_cons.mpr ⟨howner, hunowned⟩⟩

/-- Up to the first channel that has an owner, every channel is new. -/
theorem clashIn?_eq_some {owners : KeyMap Channel String} {l : List (Channel × String)} {c : Clash}
    (h : clashIn? owners l = some c) :
    ∃ first rest, l = first ++ (c.channel, c.other) :: rest ∧ (first.map (·.1)).Nodup ∧
      (∀ x ∈ first, owners.get? x.1 = none) ∧
      (owners.get? c.channel = some c.owner ∨ (c.channel, c.owner) ∈ first) := by
  induction l generalizing owners with
  | nil => nomatch h
  | cons e l ih =>
    obtain ⟨channel, id⟩ := e
    unfold clashIn? at h
    cases howner : owners.get? channel with
    | some owner =>
      rw [howner] at h
      obtain rfl := Option.some.inj h
      exact ⟨[], l, rfl, .nil, nofun, .inl howner⟩
    | none =>
      rw [howner] at h
      obtain ⟨first, rest, rfl, hnodup, hnew, hc⟩ := ih h
      obtain ⟨hchannel, hunowned⟩ := unowned_of_insert hnew
      refine ⟨(channel, id) :: first, rest, rfl, List.nodup_cons.mpr ⟨hchannel, hnodup⟩,
        List.forall_mem_cons.mpr ⟨howner, hunowned⟩, ?_⟩
      rw [KeyMap.get?_insert] at hc
      split at hc
      · rename_i he
        rcases hc with hc | hc
        · rw [← he, ← Option.some.inj hc]
          exact .inr List.mem_cons_self
        · exact .inr (List.mem_cons_of_mem _ hc)
      · exact hc.imp_right (List.mem_cons_of_mem _)

theorem map_fst_claims (channels : List Channel) (id : String) :
    (channels.map (·, id)).map Prod.fst = channels := by
  rw [List.map_map]
  exact List.map_id _

/-- Without a clash no channel is read twice. -/
theorem nodup_channels {ps : List Producer} (h : clash? ps = none) :
    (ps.flatMap (·.channels)).Nodup := by
  have hnodup := (nodup_of_clashIn h).1
  rw [List.map_flatMap] at hnodup
  simpa only [map_fst_claims] using hnodup

end Registry

/-! ## What is built -/

/-- The digitizer of a member as it is built. -/
def Synthetic.Member.producer (m : Member) : Producer := .synthetic m.id m.config

namespace Driver

/-- What can be read is refused for the first reason that speaks against it. -/
theorem fault?_synthetic {t : Tree} {config : Synthetic.Config}
    (hread : Synthetic.Config.ofTree? t = some config) : synthetic.fault? t = config.fault? := by
  unfold synthetic
  dsimp only
  rw [hread]

theorem build_synthetic {t : Tree} {config : Synthetic.Config} (id : String)
    (hread : Synthetic.Config.ofTree? t = some config) :
    synthetic.build id t = .ok (.synthetic id config) := by
  unfold synthetic
  dsimp only
  rw [hread]

theorem fault?_synthetic_eq_none_iff (t : Tree) :
    synthetic.fault? t = none ↔
      ∃ config, Synthetic.Config.ofTree? t = some config ∧ config.Usable := by
  cases hread : Synthetic.Config.ofTree? t with
  | none =>
    refine iff_of_false (fun h => ?_) fun ⟨_, h, _⟩ => nomatch h
    unfold synthetic at h
    dsimp only at h
    rw [hread] at h
    nomatch h
  | some config =>
    rw [fault?_synthetic hread, Synthetic.Config.fault?_eq_none_iff]
    constructor
    · exact fun husable => ⟨config, rfl, husable⟩
    · rintro ⟨_, he, husable⟩
      obtain rfl := Option.some.inj he
      exact husable

end Driver

namespace Registry

theorem get?_builtin (type : String) :
    builtin.get? type = if type = "mock" then some .synthetic else none := by
  unfold builtin register empty
  rw [KeyMap.get?_insert]
  exact if_congr eq_comm rfl rfl

/-- A digitizer whose configuration can be read and used is built. -/
theorem create_usable {d : Setup.Definition} {config : Synthetic.Config} (htype : d.type = "mock")
    (hread : Synthetic.Config.ofTree? d.config = some config) (husable : config.Usable) :
    builtin.create d = .ok (.synthetic d.id config) := by
  have hfault : Driver.synthetic.fault? d.config = none :=
    (Driver.fault?_synthetic_eq_none_iff _).mpr ⟨config, hread, husable⟩
  unfold create
  rw [get?_builtin, if_pos htype]
  dsimp only
  rw [hfault]
  dsimp only
  rw [Driver.build_synthetic d.id hread]

/-- A digitizer that cannot be built is refused with the reason of its driver. -/
theorem create_unfit {d : Setup.Definition} {reason : String} (htype : d.type = "mock")
    (hfault : Driver.synthetic.fault? d.config = some reason) :
    builtin.create d = .error (.driver d.type s!"{d.id}: {reason}") := by
  unfold create
  rw [get?_builtin, if_pos htype]
  dsimp only
  rw [hfault]

theorem create_unknown {d : Setup.Definition} (htype : d.type ≠ "mock") :
    builtin.create d = .error (.unknownDriver d.type) := by
  unfold create
  rw [get?_builtin, if_neg htype]

/-- Either every definition is built, or the fault of the first that is not is the answer. -/
theorem createEach_cases (r : Registry) (ds : List Setup.Definition) :
    (∃ ps, r.createEach ds = .ok ps ∧ List.Forall₂ (fun d p => r.create d = .ok p) ds ps) ∨
      ∃ before d after fault, ds = before ++ d :: after ∧ (∀ e ∈ before, ∃ p, r.create e = .ok p) ∧
        r.create d = .error fault ∧ r.createEach ds = .error fault := by
  induction ds with
  | nil => exact .inl ⟨[], rfl, .nil⟩
  | cons d rest ih =>
    unfold createEach
    cases hfirst : r.create d with
    | error fault => exact .inr ⟨[], d, rest, fault, rfl, nofun, hfirst, rfl⟩
    | ok p =>
      dsimp only
      rcases ih with ⟨ps, hrest, hps⟩ | ⟨before, e, after, fault, rfl, hbefore, he, hrest⟩
      · rw [hrest]
        exact .inl ⟨p :: ps, rfl, .cons hfirst hps⟩
      · rw [hrest]
        exact .inr ⟨d :: before, e, after, fault, rfl,
          List.forall_mem_cons.mpr ⟨⟨p, hfirst⟩, hbefore⟩, he, rfl⟩

theorem createEach_eq_ok {r : Registry} {ds : List Setup.Definition} {ps : List Producer}
    (h : r.createEach ds = .ok ps) : List.Forall₂ (fun d p => r.create d = .ok p) ds ps := by
  rcases r.createEach_cases ds with ⟨_, hok, hbuilt⟩ | ⟨_, _, _, _, _, _, _, hfailed⟩
  · exact Except.ok.inj (h.symm.trans hok) ▸ hbuilt
  · nomatch h.symm.trans hfailed

theorem createEach_eq_error {r : Registry} {ds : List Setup.Definition} {fault : Fault}
    (h : r.createEach ds = .error fault) :
    ∃ before d after, ds = before ++ d :: after ∧ (∀ e ∈ before, ∃ p, r.create e = .ok p) ∧
      r.create d = .error fault := by
  rcases r.createEach_cases ds with ⟨_, hok, _⟩ | ⟨before, d, after, _, hds, hbefore, hd, hfailed⟩
  · nomatch h.symm.trans hok
  · exact ⟨before, d, after, hds, hbefore, Except.error.inj (h.symm.trans hfailed) ▸ hd⟩

/-- What comes of all enabled definitions: producers without a clash, the fault of a definition, or
a clash. -/
theorem createAll_cases (r : Registry) (ds : List Setup.Definition) :
    (∃ ps, r.createEach (ds.filter (·.enabled)) = .ok ps ∧ clash? ps = none ∧
        r.createAll ds = .ok ps) ∨
      (∃ fault, r.createEach (ds.filter (·.enabled)) = .error fault ∧
        r.createAll ds = .error fault) ∨
      ∃ ps c, r.createEach (ds.filter (·.enabled)) = .ok ps ∧ clash? ps = some c ∧
        r.createAll ds = .error c.fault := by
  unfold createAll
  cases heach : r.createEach (ds.filter (·.enabled)) with
  | error fault => exact .inr (.inl ⟨fault, rfl, rfl⟩)
  | ok ps =>
    dsimp only
    cases hclash : clash? ps with
    | none => exact .inl ⟨ps, rfl, hclash, rfl⟩
    | some c => exact .inr (.inr ⟨ps, c, rfl, hclash, rfl⟩)

theorem createAll_eq_ok {r : Registry} {ds : List Setup.Definition} {ps : List Producer}
    (h : r.createAll ds = .ok ps) :
    r.createEach (ds.filter (·.enabled)) = .ok ps ∧ clash? ps = none := by
  rcases r.createAll_cases ds with ⟨built, heach, hclash, hall⟩ | ⟨_, _, hall⟩ | ⟨_, _, _, _, hall⟩
  · obtain rfl := Except.ok.inj (h.symm.trans hall)
    exact ⟨heach, hclash⟩
  · nomatch h.symm.trans hall
  · nomatch h.symm.trans hall

/-- Every driver that a definition asks for is that of digitizers. -/
def Digitizes (r : Registry) (d : Setup.Definition) : Prop :=
  ∀ driver, r.get? d.type = some driver → driver = .synthetic

theorem digitizes_builtin (d : Setup.Definition) : builtin.Digitizes d := by
  intro driver hdriver
  rw [get?_builtin] at hdriver
  split at hdriver
  · exact (Option.some.inj hdriver).symm
  · nomatch hdriver

section

variable {r : Registry}

theorem create_digitizes {d : Setup.Definition} {p : Producer} (hd : r.Digitizes d)
    (h : r.create d = .ok p) :
    ∃ m : Member, m.id = d.id ∧ m.config.Restorable ∧ p = m.producer := by
  unfold create at h
  split at h
  · nomatch h
  · rename_i driver hdriver
    obtain rfl := hd driver hdriver
    cases hfault : Driver.synthetic.fault? d.config with
    | some reason =>
      rw [hfault] at h
      nomatch h
    | none =>
      obtain ⟨config, hread, husable⟩ := (Driver.fault?_synthetic_eq_none_iff _).mp hfault
      rw [hfault] at h
      dsimp only at h
      rw [Driver.build_synthetic d.id hread] at h
      exact ⟨⟨d.id, config⟩, rfl, Synthetic.Config.restorable_of_ofTree? hread husable,
        (Except.ok.inj h).symm⟩

theorem createEach_digitizes {ds : List Setup.Definition} {ps : List Producer}
    (hds : ∀ d ∈ ds, r.Digitizes d) (h : r.createEach ds = .ok ps) :
    ∃ members : List Member, members.map (·.id) = ds.map (·.id) ∧
      (∀ m ∈ members, m.config.Restorable) ∧ ps = members.map (·.producer) := by
  have hbuilt := createEach_eq_ok h
  clear h
  induction hbuilt with
  | nil => exact ⟨[], rfl, nofun, rfl⟩
  | cons hfirst _ ih =>
    obtain ⟨hd, hds⟩ := List.forall_mem_cons.mp hds
    obtain ⟨m, hid, hrestorable, rfl⟩ := create_digitizes hd hfirst
    obtain ⟨members, hids, hall, rfl⟩ := ih hds
    refine ⟨m :: members, ?_, List.forall_mem_cons.mpr ⟨hrestorable, hall⟩, rfl⟩
    rw [List.map_cons, List.map_cons, hid, hids]

theorem createAll_digitizes {ds : List Setup.Definition} {ps : List Producer}
    (hds : ∀ d ∈ ds, d.enabled = true → r.Digitizes d) (h : r.createAll ds = .ok ps) :
    ∃ members : List Member, members.map (·.id) = (ds.filter (·.enabled)).map (·.id) ∧
      (∀ m ∈ members, m.config.Restorable) ∧
      (members.flatMap (·.config.channels)).Nodup ∧ ps = members.map (·.producer) := by
  obtain ⟨heach, hclash⟩ := createAll_eq_ok h
  have henabled : ∀ d ∈ ds.filter (·.enabled), r.Digitizes d := fun d hd =>
    hds d (List.mem_filter.mp hd).1 (List.mem_filter.mp hd).2
  obtain ⟨members, hids, hrestorable, rfl⟩ := createEach_digitizes henabled heach
  have hchannels := nodup_channels hclash
  rw [List.flatMap_map] at hchannels
  exact ⟨members, hids, hrestorable, hchannels, rfl⟩

end

end Registry

/-- Members of a session: their configurations can be used, they have identifiers of their own, and
no two of them read one channel. -/
structure Synthetic.Crew (members : List Member) : Prop where
  usable : ∀ m ∈ members, m.config.Usable
  ids : (members.map (·.id)).Nodup
  channels : (members.flatMap (·.config.channels)).Nodup

/-- Two members that read one channel are one. -/
theorem Synthetic.Crew.owner {members : List Member} (h : Crew members) :
    ∀ p ∈ members, ∀ q ∈ members, ∀ c ∈ p.config.channels, c ∈ q.config.channels → p.id = q.id := by
  intro p hp q hq c hc hc'
  by_contra hne
  have : Std.Symm (Function.onFun List.Disjoint fun m : Member => m.config.channels) :=
    ⟨fun _ _ hapart => List.disjoint_comm.mp hapart⟩
  have hapart := (List.nodup_flatMap.mp h.channels).2.forall hp hq fun he => hne (he ▸ rfl)
  exact hapart hc hc'

/-- What comes of a setup: its own contradiction, the fault of its producers, or a session. -/
theorem Session.ofSetup_cases (setup : Setup) (drivers : Registry) (clock : Nat → Instant)
    (entropy : Nat → Random.Source) :
    (∃ fault, setup.fault? = some fault ∧ ofSetup setup drivers clock entropy = .error fault) ∨
      (∃ fault, setup.fault? = none ∧ drivers.createAll setup.producers = .error fault ∧
        ofSetup setup drivers clock entropy = .error fault) ∨
      ∃ ps, setup.fault? = none ∧ drivers.createAll setup.producers = .ok ps ∧
        ofSetup setup drivers clock entropy =
          .ok (.new setup.schedule.toTiming setup.detectors ps clock entropy) := by
  unfold ofSetup
  cases hfault : setup.fault? with
  | some fault => exact .inl ⟨fault, rfl, rfl⟩
  | none =>
    dsimp only
    cases hall : drivers.createAll setup.producers with
    | error fault => exact .inr (.inl ⟨fault, rfl, rfl, rfl⟩)
    | ok ps => exact .inr (.inr ⟨ps, rfl, rfl, rfl⟩)

theorem Session.ofSetup_eq_ok {setup : Setup} {drivers : Registry} {clock : Nat → Instant}
    {entropy : Nat → Random.Source} {s : Session}
    (h : ofSetup setup drivers clock entropy = .ok s) :
    setup.fault? = none ∧ ∃ ps, drivers.createAll setup.producers = .ok ps ∧
      s = .new setup.schedule.toTiming setup.detectors ps clock entropy := by
  rcases ofSetup_cases setup drivers clock entropy with
    ⟨_, _, hfailed⟩ | ⟨_, _, _, hfailed⟩ | ⟨ps, hfault, hall, hbuilt⟩
  · nomatch h.symm.trans hfailed
  · nomatch h.symm.trans hfailed
  · exact ⟨hfault, ps, hall, Except.ok.inj (h.symm.trans hbuilt)⟩

/-- A session of digitizers that is built for a setup. -/
theorem Session.ofSetup_digitizes {setup : Setup} {drivers : Registry} {clock : Nat → Instant}
    {entropy : Nat → Random.Source} {s : Session}
    (hdrivers : ∀ d ∈ setup.producers, d.enabled = true → drivers.Digitizes d)
    (h : ofSetup setup drivers clock entropy = .ok s) :
    ∃ members : List Member, Synthetic.Crew members ∧ (∀ m ∈ members, m.config.Restorable) ∧
      s = .new setup.schedule.toTiming setup.detectors (members.map (·.producer)) clock
        entropy := by
  obtain ⟨hfault, ps, hall, rfl⟩ := ofSetup_eq_ok h
  obtain ⟨members, hids, hrestorable, hchannels, rfl⟩ := Registry.createAll_digitizes hdrivers hall
  refine ⟨members, ⟨fun m hm => (hrestorable m hm).toUsable, ?_, hchannels⟩, hrestorable, rfl⟩
  rw [hids]
  exact ((Setup.fault?_eq_none_iff setup).mp hfault).ids.sublist (List.filter_sublist.map _)

/-- A session that the builtin drivers build for a setup. -/
theorem Session.ofSetup_builtin {setup : Setup} {clock : Nat → Instant}
    {entropy : Nat → Random.Source} {s : Session}
    (h : ofSetup setup .builtin clock entropy = .ok s) :
    ∃ members : List Member, Synthetic.Crew members ∧ s = .new setup.schedule.toTiming
      setup.detectors (members.map (·.producer)) clock entropy := by
  obtain ⟨members, hcrew, -, hs⟩ :=
    ofSetup_digitizes (fun d _ _ => Registry.digitizes_builtin d) h
  exact ⟨members, hcrew, hs⟩

/-- A setup with one digitizer. -/
theorem Session.ofSetup_single {setup : Setup} {d : Setup.Definition} {config : Synthetic.Config}
    (clock : Nat → Instant) (entropy : Nat → Random.Source) (hfault : setup.fault? = none)
    (hproducers : setup.producers.filter (·.enabled) = [d]) (htype : d.type = "mock")
    (hread : Synthetic.Config.ofTree? d.config = some config) (husable : config.Usable)
    (hclash : Registry.clash? [.synthetic d.id config] = none) :
    ofSetup setup .builtin clock entropy = .ok (.new setup.schedule.toTiming setup.detectors
      [.synthetic d.id config] clock entropy) := by
  have hcreate : Registry.builtin.createAll setup.producers = .ok [.synthetic d.id config] := by
    unfold Registry.createAll
    rw [hproducers]
    unfold Registry.createEach
    rw [Registry.create_usable htype hread husable]
    unfold Registry.createEach
    dsimp only
    rw [hclash]
  unfold ofSetup
  rw [hfault, hcreate]

end ListMode
