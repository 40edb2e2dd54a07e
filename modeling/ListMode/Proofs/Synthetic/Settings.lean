import ListMode.Proofs.Tree
import ListMode.Synthetic.Config

/-!
# Settings of a digitizer

A configuration that can be used and whose numbers lie in the range of their types reads back from
its tree, field by field. Every configuration that can be read has its numbers in range, so
whatever has been written to a digitizer can be read from it and written back.
-/

namespace ListMode.Synthetic.Config

/-- A configuration that can be used and that a tree can hold. -/
structure Restorable (c : Config) : Prop extends c.Usable where
  interval_lt : c.interval < Nat.pow 2 64
  maxSpills_lt : ∀ n ∈ c.maxSpills, n < Nat.pow 2 64

variable {c : Config}

/-- The fields of a configuration as they are written. -/
def written (c : Config) : List (String × Tree) :=
  [("channels", .arr (c.channels.map fun ch => .int ch.toInt)),
    ("event_rate_hz", Tree.ofFloat c.rate),
    ("spill_interval_ms", .int c.interval),
    ("energy_max", .int c.energyMax.toNat),
    ("seed", Tree.ofOption (fun n => .int n.toNat) c.seed),
    ("max_spills", Tree.ofOption (fun n : Nat => .int n) c.maxSpills),
    ("raw_output", .bool c.rawOutput),
    ("fail_boot", .bool c.failBoot),
    ("oscilloscope", .bool c.oscilloscope)]

theorem toTree_eq (c : Config) : c.toTree = .obj (KeyMap.ofList c.written).entries := by
  have hobject : c.toTree = Tree.object c.written := by
    unfold toTree written
    cases c.maxSpills <;> rfl
  rw [hobject, Tree.object_eq]

theorem nodup_written (c : Config) : (c.written.map (·.1)).Nodup := by
  show ["channels", "event_rate_hz", "spill_interval_ms", "energy_max", "seed", "max_spills",
    "raw_output", "fail_boot", "oscilloscope"].Nodup
  decide

/-- A field that has been written is read, whatever its place and its default. -/
theorem orDefault_written {α : Type} {name : String} {t : Tree} {value : α}
    {read : Tree → Option α} (hmem : (name, t) ∈ c.written) (hread : read t = some value)
    (index : Nat) (default : α) :
    (Tree.Parts.named (KeyMap.ofList c.written).entries).orDefault index name default read =
      some value := by
  have hget : (Tree.Parts.named (KeyMap.ofList c.written).entries).get? index name = some t :=
    Tree.field?_ofList c.nodup_written hmem
  unfold Tree.Parts.orDefault
  rw [hget]
  exact hread

/-- Reading gives back what was written. -/
theorem ofTree?_toTree (h : c.Restorable) : ofTree? c.toTree = some c := by
  have hchannels : (Tree.arr (c.channels.map fun ch => .int ch.toInt)).toListOf? Tree.toInt16? =
      some c.channels := Tree.toListOf?_map Tree.toInt16?_int c.channels
  have hrate : (Tree.ofFloat c.rate).toFloat? = some c.rate := Tree.toFloat?_ofFloat h.finite
  have hinterval : (Tree.int c.interval).toNat? 64 = some c.interval :=
    Tree.toNat?_int h.interval_lt
  have henergy : (Tree.int c.energyMax.toNat).toUInt16? = some c.energyMax :=
    Tree.toUInt16?_int c.energyMax
  have hseed : (Tree.ofOption (fun n : UInt64 => .int n.toNat) c.seed).toOptionOf? Tree.toUInt64? =
      some c.seed := Tree.toOptionOf?_ofOption (fun n _ => Tree.toUInt64?_int n) nofun
  have hmax : (Tree.ofOption (fun n : Nat => .int n) c.maxSpills).toOptionOf? (Tree.toNat? 64) =
      some c.maxSpills :=
    Tree.toOptionOf?_ofOption (fun n hn => Tree.toNat?_int (h.maxSpills_lt n hn)) nofun
  have hraw : (Tree.bool c.rawOutput).toBool? = some c.rawOutput := rfl
  have hboot : (Tree.bool c.failBoot).toBool? = some c.failBoot := rfl
  have hscope : (Tree.bool c.oscilloscope).toBool? = some c.oscilloscope := rfl
  rw [toTree_eq]
  unfold ofTree?
  simp only [Tree.Parts.ofTree?, Option.bind_eq_bind, Option.bind_some]
  rw [orDefault_written (by simp [written]) hchannels, Option.bind_some,
    orDefault_written (by simp [written]) hrate, Option.bind_some,
    orDefault_written (by simp [written]) hinterval, Option.bind_some,
    orDefault_written (by simp [written]) henergy, Option.bind_some,
    orDefault_written (by simp [written]) hseed, Option.bind_some,
    orDefault_written (by simp [written]) hmax, Option.bind_some,
    orDefault_written (by simp [written]) hraw, Option.bind_some,
    orDefault_written (by simp [written]) hboot, Option.bind_some,
    orDefault_written (by simp [written]) hscope, Option.bind_some]
  rfl

/-! ## Rates -/

/-- Of finite numbers, those that are not at most zero are the positive ones. -/
theorem pos_of_not_le {x : Float} (hfinite : x.isFinite = true) (h : ¬x ≤ 0.0) : 0.0 < x := by
  have hzero : (0.0 : Float).toModel.unpack = .zero .positive := rfl
  have hle : x ≤ 0.0 ↔ x.toModel.unpack.le (0.0 : Float).toModel.unpack = true :=
    decide_eq_true_iff
  have hlt : 0.0 < x ↔ (0.0 : Float).toModel.unpack.lt x.toModel.unpack = true :=
    decide_eq_true_iff
  have hbits : x.toModel.unpack.isFinite = true := hfinite
  rw [hle, hzero] at h
  rw [hlt, hzero]
  cases hx : x.toModel.unpack with
  | notANumber =>
    rw [hx] at hbits
    nomatch hbits
  | infinity s =>
    rw [hx] at hbits
    nomatch hbits
  | zero s =>
    rw [hx] at h
    exact absurd (by cases s <;> decide) h
  | finite s =>
    rw [hx] at h
    cases s with
    | positive => rfl
    | negative => exact absurd rfl h

theorem Usable.rate_pos (h : c.Usable) : 0.0 < c.rate := pos_of_not_le h.finite h.positive

/-! ## What can be read -/

theorem mem_of_orDefault {α : Type} {p : Tree.Parts} {index : Nat} {name : String} {default value : α}
    {read : Tree → Option α} (h : p.orDefault index name default read = some value) :
    value = default ∨ ∃ t, read t = some value := by
  unfold Tree.Parts.orDefault at h
  split at h
  · exact .inl (Option.some.inj h).symm
  · exact .inr ⟨_, h⟩

/-- What has been read is in the range of its type. -/
theorem range_of_ofTree? {t : Tree} (h : ofTree? t = some c) :
    c.interval < Nat.pow 2 64 ∧ ∀ n ∈ c.maxSpills, n < Nat.pow 2 64 := by
  unfold ofTree? at h
  simp only [Option.bind_eq_bind, Option.bind_eq_some_iff] at h
  obtain ⟨p, -, channels, -, rate, -, interval, hinterval, energyMax, -, seed, -, maxSpills, hmax,
    rawOutput, -, failBoot, -, oscilloscope, -, hc⟩ := h
  obtain rfl := Option.some.inj hc
  constructor
  · rcases mem_of_orDefault hinterval with hdefault | ⟨t, ht⟩
    · exact lt_of_eq_of_lt hdefault (by decide)
    · exact Tree.toNat?_lt ht
  · intro n hn
    rcases mem_of_orDefault hmax with rfl | ⟨t, ht⟩
    · nomatch hn
    · exact Tree.toNat?_lt (Tree.mem_of_toOptionOf? ht hn)

/-- A configuration that has been read and can be used can be written and read again. -/
theorem restorable_of_ofTree? {t : Tree} (h : ofTree? t = some c) (husable : c.Usable) :
    c.Restorable :=
  { husable with
    interval_lt := (range_of_ofTree? h).1
    maxSpills_lt := (range_of_ofTree? h).2 }

end ListMode.Synthetic.Config
