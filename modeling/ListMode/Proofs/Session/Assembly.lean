import Mathlib.Data.List.Forall2
import Mathlib.Data.List.Nodup
import ListMode.Proofs.Registry

/-!
# Which setups are accepted

With the builtin drivers, a session is assembled for a setup without contradictions whose enabled
definitions ask for digitizers that can be used and that read no channel in common. Its producers
are then those digitizers, in the order of their definitions. For every other setup the answer is
the first reason in a fixed order: a contradiction in the setup, a definition that no driver can
use, a channel that an earlier producer reads already.
-/

namespace ListMode

namespace Setup

namespace Definition

/-- The definition asks for a digitizer with configuration `c`, and that one can be used. -/
structure Describes (d : Definition) (c : Synthetic.Config) : Prop extends c.Usable where
  type_eq : d.type = "mock"
  config_eq : Synthetic.Config.ofTree? d.config = some c
  rate_pos : 0.0 < c.rate

/-- The channels that a definition asks for. -/
def channels (d : Definition) : List Channel :=
  ((Synthetic.Config.ofTree? d.config).map (·.channels)).getD []

/-- Why a definition cannot be used. A configuration that can be read is refused for the first
reason that speaks against it. -/
inductive Refused (d : Definition) : Fault → Prop where
  | unknown (type_ne : d.type ≠ "mock") : Refused d (.unknownDriver d.type)
  | driver {reason : String} (type_eq : d.type = "mock") (unfit : ¬∃ c, d.Describes c)
    (first : ∀ c, Synthetic.Config.ofTree? d.config = some c → c.fault? = some reason) :
    Refused d (.driver d.type s!"{d.id}: {reason}")

end Definition

/-- A setup for which a session is assembled. -/
structure Accepted (s : Setup) : Prop extends s.Sound where
  digitizers : ∀ d ∈ s.enabled, ∃ c, d.Describes c
  apart : s.enabled.Pairwise fun d e => d.channels.Disjoint e.channels

/-- The first reason to reject a setup, by the fault that reports it. -/
inductive Rejected (s : Setup) : Fault → Prop where
  | setup {fault : Fault} (first : s.Contradicts fault) : Rejected s fault
  | driver {fault : Fault} (sound : s.Sound) {before after : List Definition} {d : Definition}
    (split : s.enabled = before ++ d :: after) (digitizers : ∀ e ∈ before, ∃ c, e.Describes c)
    (first : d.Refused fault) : Rejected s fault
  | channel (sound : s.Sound) (digitizers : ∀ d ∈ s.enabled, ∃ c, d.Describes c)
    {before after : List Definition} {owner d : Definition} {first rest : List Channel}
    {c : Channel} (split : s.enabled = before ++ d :: after)
    (place : d.channels = first ++ c :: rest)
    (apart : (before.flatMap (·.channels) ++ first).Nodup)
    (owned : owner ∈ before) (again : c ∈ owner.channels) :
    Rejected s (.invalidConfig s!"channel {c.toInt} is read by both '{owner.id}' and '{d.id}'")

/-! ## One definition -/

namespace Definition

variable {d : Definition} {c : Synthetic.Config}

theorem describes_iff :
    d.Describes c ↔
      d.type = "mock" ∧ Synthetic.Config.ofTree? d.config = some c ∧ c.Usable :=
  ⟨fun h => ⟨h.type_eq, h.config_eq, h.toUsable⟩,
    fun ⟨htype, hconfig, husable⟩ => ⟨husable, htype, hconfig, husable.rate_pos⟩⟩

theorem Describes.channels_eq (h : d.Describes c) : d.channels = c.channels := by
  unfold channels
  rw [h.config_eq]
  rfl

theorem nodup_channels (h : ∃ c, d.Describes c) : d.channels.Nodup := by
  obtain ⟨c, hc⟩ := h
  rw [hc.channels_eq]
  exact hc.nodup

/-- Either the digitizer is built that a definition asks for, or the definition is refused. -/
theorem create_cases (d : Definition) :
    (∃ c, d.Describes c ∧ Registry.builtin.create d = .ok (.synthetic d.id c)) ∨
      ∃ fault, d.Refused fault ∧ Registry.builtin.create d = .error fault := by
  by_cases htype : d.type = "mock"
  · cases hfault : Driver.synthetic.fault? d.config with
    | none =>
      obtain ⟨c, hconfig, husable⟩ := (Driver.fault?_synthetic_eq_none_iff _).mp hfault
      exact .inl ⟨c, describes_iff.mpr ⟨htype, hconfig, husable⟩,
        Registry.create_usable htype hconfig husable⟩
    | some reason =>
      have hunfit : ¬∃ c, d.Describes c := by
        rintro ⟨c, hc⟩
        have hnone := (Driver.fault?_synthetic_eq_none_iff _).mpr ⟨c, hc.config_eq, hc.toUsable⟩
        nomatch hnone.symm.trans hfault
      refine .inr ⟨_, .driver htype hunfit fun c hconfig => ?_, Registry.create_unfit htype hfault⟩
      exact (Driver.fault?_synthetic hconfig).symm.trans hfault
  · exact .inr ⟨_, .unknown htype, Registry.create_unknown htype⟩

theorem Refused.unfit {fault : Fault} (h : d.Refused fault) : ¬∃ c, d.Describes c := by
  cases h with
  | unknown htype => exact fun ⟨c, hc⟩ => htype hc.type_eq
  | driver _ hunfit _ => exact hunfit

/-- The digitizer that a definition asks for. -/
def Built (d : Definition) (p : Producer) : Prop := ∃ c, d.Describes c ∧ p = .synthetic d.id c

theorem built_of_create {p : Producer} (h : Registry.builtin.create d = .ok p) : d.Built p := by
  rcases d.create_cases with ⟨c, hc, hbuilt⟩ | ⟨fault, -, hfailed⟩
  · exact ⟨c, hc, Except.ok.inj (h.symm.trans hbuilt)⟩
  · nomatch h.symm.trans hfailed

theorem refused_of_create {fault : Fault} (h : Registry.builtin.create d = .error fault) :
    d.Refused fault := by
  rcases d.create_cases with ⟨c, -, hbuilt⟩ | ⟨fault', hrefused, hfailed⟩
  · nomatch h.symm.trans hbuilt
  · exact Except.error.inj (h.symm.trans hfailed) ▸ hrefused

end Definition

/-! ## All definitions -/

/-- The channels of a definition, each with the identifier of its reader. -/
def Definition.claims (d : Definition) : List (Channel × String) := d.channels.map (·, d.id)

namespace Definition.Built

variable {d : Definition} {p : Producer}

theorem id_eq (h : d.Built p) : d.id = p.id := by
  obtain ⟨c, -, rfl⟩ := h
  rfl

theorem channels_eq (h : d.Built p) : d.channels = p.channels := by
  obtain ⟨c, hc, rfl⟩ := h
  exact hc.channels_eq

theorem claims_eq (h : d.Built p) : d.claims = p.channels.map (·, p.id) := by
  unfold claims
  rw [h.channels_eq, h.id_eq]

end Definition.Built

/-- What a definition has in common with its producer, all definitions have with theirs. -/
theorem map_eq_of_built {α : Type} {f : Definition → α} {g : Producer → α} {ds : List Definition}
    {ps : List Producer} (hfg : ∀ d p, d.Built p → f d = g p)
    (h : List.Forall₂ Definition.Built ds ps) : ds.map f = ps.map g := by
  rw [← List.forall₂_eq_eq_eq, List.forall₂_map_left_iff, List.forall₂_map_right_iff]
  exact h.imp hfg

theorem clash?_built {ds : List Definition} {ps : List Producer}
    (h : List.Forall₂ Definition.Built ds ps) :
    Registry.clash? ps = Registry.clashIn? ∅ (ds.flatMap (·.claims)) := by
  unfold Registry.clash?
  rw [List.flatMap_def, List.flatMap_def, map_eq_of_built (fun _ _ => Definition.Built.claims_eq) h]

/-- An element of a list of lists that are appended stands in one of them. -/
theorem split_flatMap {α β : Type} {f : α → List β} {l : List α} {first rest : List β} {b : β}
    (h : l.flatMap f = first ++ b :: rest) :
    ∃ before a after inner outer, l = before ++ a :: after ∧ f a = inner ++ b :: outer ∧
      first = before.flatMap f ++ inner := by
  induction l generalizing first with
  | nil => nomatch List.append_ne_nil_of_right_ne_nil first (List.cons_ne_nil b rest) h.symm
  | cons a l ih =>
    rw [List.flatMap_cons] at h
    have hlater : ∀ first', l.flatMap f = first' ++ b :: rest → first = f a ++ first' →
        ∃ before a' after inner outer, a :: l = before ++ a' :: after ∧
          f a' = inner ++ b :: outer ∧ first = before.flatMap f ++ inner := by
      rintro first' hsplit rfl
      obtain ⟨before, a', after, inner, outer, rfl, ha, rfl⟩ := ih hsplit
      refine ⟨a :: before, a', after, inner, outer, rfl, ha, ?_⟩
      rw [List.flatMap_cons, List.append_assoc]
    rcases List.append_eq_append_iff.mp h with ⟨first', hfirst, hsplit⟩ | ⟨tail, ha, htail⟩
    · exact hlater first' hsplit hfirst
    · cases tail with
      | nil => exact hlater [] htail.symm (by rw [ha, List.append_nil, List.append_nil])
      | cons x outer =>
        obtain ⟨rfl, -⟩ := List.cons.inj htail
        exact ⟨[], a, l, first, outer, rfl, ha, rfl⟩

/-- A channel that is read twice is read by two definitions if none names a channel twice. -/
theorem clashIn?_claims {ds : List Definition} {clash : Registry.Clash}
    (hds : ∀ d ∈ ds, d.channels.Nodup)
    (h : Registry.clashIn? ∅ (ds.flatMap (·.claims)) = some clash) :
    ∃ before d after first c rest owner, ds = before ++ d :: after ∧
      d.channels = first ++ c :: rest ∧ (before.flatMap (·.channels) ++ first).Nodup ∧
      owner ∈ before ∧ c ∈ owner.channels ∧ clash = ⟨c, owner.id, d.id⟩ := by
  obtain ⟨claimed, _, hsplit, hnodup, -, howner⟩ := Registry.clashIn?_eq_some h
  obtain ⟨before, d, after, inner, outer, rfl, hd, rfl⟩ := split_flatMap hsplit
  obtain ⟨first, _, hchannels, rfl, hrest⟩ := List.map_eq_append_iff.mp hd
  obtain ⟨c, rest, rfl, hc, -⟩ := List.map_eq_cons_iff.mp hrest
  obtain ⟨channel, owner, other⟩ := clash
  obtain ⟨rfl, rfl⟩ := Prod.mk.inj hc
  rw [List.map_append, List.map_flatMap] at hnodup
  simp only [Definition.claims, Registry.map_fst_claims] at hnodup
  rcases List.mem_append.mp (howner.resolve_left nofun) with hbefore | hfirst
  · obtain ⟨o, ho, hclaim⟩ := List.mem_flatMap.mp hbefore
    obtain ⟨_, hread, he⟩ := List.mem_map.mp hclaim
    obtain ⟨rfl, rfl⟩ := Prod.mk.inj he
    exact ⟨before, d, after, first, _, rest, o, rfl, hchannels, hnodup, ho, hread, rfl⟩
  · -- the definition itself does not name the channel before
    obtain ⟨_, hread, he⟩ := List.mem_map.mp hfirst
    obtain ⟨rfl, -⟩ := Prod.mk.inj he
    have hd := hds d (List.mem_append_right _ List.mem_cons_self)
    rw [hchannels] at hd
    exact absurd rfl ((List.nodup_append.mp hd).2.2 _ hread _ List.mem_cons_self)

/-- Without a list of channels a digitizer reads the first two. -/
example :
    let first : Definition := ⟨"first", "mock", true, .obj []⟩
    let second : Definition := ⟨"second", "mock", true, .obj [("channels", .arr [.int 2, .int 1])]⟩
    Registry.clashIn? ∅ ([first, second].flatMap (·.claims)) = some ⟨1, "first", "second"⟩ := by
  decide +kernel

/-- No setup is accepted that there is a reason to reject. -/
theorem Rejected.not_accepted {s : Setup} {fault : Fault} (h : s.Rejected fault) : ¬s.Accepted := by
  intro haccepted
  cases h with
  | setup hfirst => exact hfirst.not_sound haccepted.toSound
  | driver _ hsplit _ hrefused =>
    refine hrefused.unfit (haccepted.digitizers _ ?_)
    rw [hsplit]
    exact List.mem_append_right _ List.mem_cons_self
  | channel _ _ hsplit hplace _ howned hagain =>
    have hapart := haccepted.apart
    rw [hsplit] at hapart
    have hdisjoint := (List.pairwise_append.mp hapart).2.2 _ howned _ List.mem_cons_self
    refine hdisjoint hagain ?_
    rw [hplace]
    exact List.mem_append_right _ List.mem_cons_self

theorem describes_of_built {ds : List Definition} {ps : List Producer}
    (h : List.Forall₂ Definition.Built ds ps) : ∀ d ∈ ds, ∃ c, d.Describes c := by
  induction h with
  | nil => exact nofun
  | cons hd _ ih =>
    obtain ⟨c, hc, -⟩ := hd
    exact List.forall_mem_cons.mpr ⟨⟨c, hc⟩, ih⟩

/-- Without a clash among their producers, no two definitions ask for one channel. -/
theorem apart_of_clash {ds : List Definition} {ps : List Producer}
    (hbuilt : List.Forall₂ Definition.Built ds ps) (h : Registry.clash? ps = none) :
    ds.Pairwise fun d e => d.channels.Disjoint e.channels := by
  have hnodup := Registry.nodup_channels h
  rw [List.flatMap_def, ← map_eq_of_built (fun _ _ => Definition.Built.channels_eq) hbuilt,
    ← List.flatMap_def] at hnodup
  exact (List.nodup_flatMap.mp hnodup).2

theorem built_of_createEach {ds : List Definition} {ps : List Producer}
    (h : Registry.builtin.createEach ds = .ok ps) : List.Forall₂ Definition.Built ds ps :=
  (Registry.createEach_eq_ok h).imp fun _ _ => Definition.built_of_create

variable {s : Setup}

theorem accepted_of_createAll {ps : List Producer} (hsound : s.Sound)
    (h : Registry.builtin.createAll s.producers = .ok ps) :
    s.Accepted ∧ List.Forall₂ Definition.Built s.enabled ps := by
  obtain ⟨heach, hclash⟩ := Registry.createAll_eq_ok h
  have hbuilt : List.Forall₂ Definition.Built s.enabled ps := built_of_createEach heach
  exact ⟨⟨hsound, describes_of_built hbuilt, apart_of_clash hbuilt hclash⟩, hbuilt⟩

theorem rejected_of_createAll {fault : Fault} (hsound : s.Sound)
    (h : Registry.builtin.createAll s.producers = .error fault) : s.Rejected fault := by
  rcases Registry.builtin.createAll_cases s.producers with
    ⟨_, _, _, hall⟩ | ⟨_, heach, hall⟩ | ⟨ps, clash, heach, hclash, hall⟩
  · nomatch h.symm.trans hall
  · obtain rfl := Except.error.inj (h.symm.trans hall)
    obtain ⟨before, d, after, hsplit, hbefore, hd⟩ := Registry.createEach_eq_error heach
    refine .driver hsound hsplit (fun e he => ?_) (Definition.refused_of_create hd)
    obtain ⟨p, hp⟩ := hbefore e he
    obtain ⟨c, hc, -⟩ := Definition.built_of_create hp
    exact ⟨c, hc⟩
  · obtain rfl := Except.error.inj (h.symm.trans hall)
    have hbuilt : List.Forall₂ Definition.Built s.enabled ps := built_of_createEach heach
    have hdescribes := describes_of_built hbuilt
    rw [clash?_built hbuilt] at hclash
    obtain ⟨before, d, after, first, c, rest, owner, hsplit, hplace, hnew, howner, hagain, rfl⟩ :=
      clashIn?_claims (fun d hd => Definition.nodup_channels (hdescribes d hd)) hclash
    exact .channel hsound hdescribes hsplit hplace hnew howner hagain

end Setup

namespace Session

open Setup (Definition)

/-- Either the setup is accepted and its digitizers are built, or it is rejected for the first
reason that there is. -/
theorem ofSetup_builtin_cases (setup : Setup) (clock : Nat → Instant)
    (entropy : Nat → Random.Source) :
    (setup.Accepted ∧ ∃ ps, List.Forall₂ Definition.Built setup.enabled ps ∧
        ofSetup setup .builtin clock entropy =
          .ok (.new setup.schedule.toTiming setup.detectors ps clock entropy)) ∨
      ∃ fault, setup.Rejected fault ∧ ofSetup setup .builtin clock entropy = .error fault := by
  rcases ofSetup_cases setup .builtin clock entropy with
    ⟨fault, hfault, hsession⟩ | ⟨fault, hfault, hall, hsession⟩ | ⟨ps, hfault, hall, hsession⟩
  · rcases setup.fault?_cases with ⟨hnone, -⟩ | ⟨fault', hsome, hcontradicts⟩
    · nomatch hnone.symm.trans hfault
    · obtain rfl := Option.some.inj (hsome.symm.trans hfault)
      exact .inr ⟨_, .setup hcontradicts, hsession⟩
  · have hsound := (Setup.fault?_eq_none_iff setup).mp hfault
    exact .inr ⟨fault, Setup.rejected_of_createAll hsound hall, hsession⟩
  · have hsound := (Setup.fault?_eq_none_iff setup).mp hfault
    obtain ⟨haccepted, hbuilt⟩ := Setup.accepted_of_createAll hsound hall
    exact .inl ⟨haccepted, ps, hbuilt, hsession⟩

end Session

end ListMode
