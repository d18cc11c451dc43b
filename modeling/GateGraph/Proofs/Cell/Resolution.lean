import GateGraph.Proofs.Cell.Gates
import GateGraph.Proofs.Text.LetterCase

/-!
# `GateGraph.Proofs.Cell.Resolution` — the names that stand for an activation

A name is looked up after it has been brought into lower case, and this knows the letters of all scripts. The
names of the activations are ASCII and do without a `k`, so nothing but their own letters in either case is
found under them. A name with any other character stands for no activation, even where its lowercase form is
shorter or longer than the name, or depends on what stands around a letter.

Names come in lower case more than once: when a cell is made, each time that it comes back from a map, and when
a gate is asked for its activation. All of this finds the same as looking up the name that was given.

## Contents
- `ActivationKind.name_eq_lowercase_iff`, which names become that of an activation.
- `Activation.resolve_cases`, the two ends of looking up a name, and `Activation.resolve_repeat`.
- `Cell.kind_activation`, the kind of a gate, and `Cell.kind_rebuilt`.
- `Activation.resolution_exact`.
-/

namespace GateGraph

/-! ## Names of activations -/

theorem ActivationKind.isPlain_name (kind : ActivationKind) : Text.IsPlain kind.name := by
  cases kind <;> decide

/-- What becomes the name of an activation is that name up to the case of its letters. -/
theorem ActivationKind.name_eq_lowercase_iff {kind : ActivationKind} {s : String} :
    kind.name = Text.lowercase s ↔ Text.EqualUpToCase s kind.name :=
  eq_comm.trans (Text.lowercase_eq_iff kind.isPlain_name)

namespace Activation

/-! ## Looking up a name -/

/-- A name is either found, up to the case of its letters, or it stands for nothing. -/
theorem resolve_cases (s : String) :
    (∃ kind : ActivationKind, Text.EqualUpToCase s kind.name ∧ resolve s = .ok (ofKind kind)) ∨
      (∀ kind : ActivationKind, ¬ Text.EqualUpToCase s kind.name) ∧
        resolve s = .error (.unknownActivation (Text.lowercase s)) := by
  by_cases hkind : ∃ kind : ActivationKind, Text.EqualUpToCase s kind.name
  · obtain ⟨kind, hequal⟩ := hkind
    exact .inl ⟨kind, hequal, resolve_of_known (ActivationKind.name_eq_lowercase_iff.mpr hequal)⟩
  · have hnone : ∀ kind : ActivationKind, ¬ Text.EqualUpToCase s kind.name := not_exists.mp hkind
    refine .inr ⟨hnone, resolve_of_unknown fun kind hname => ?_⟩
    exact hnone kind (ActivationKind.name_eq_lowercase_iff.mp hname)

theorem resolve_eq_ok_iff {s : String} {f : Activation} :
    resolve s = .ok f ↔ ∃ kind : ActivationKind, Text.EqualUpToCase s kind.name ∧ f = ofKind kind := by
  constructor
  · intro h
    rcases resolve_cases s with ⟨kind, hequal, hfound⟩ | ⟨-, hunknown⟩
    · rw [hfound] at h
      exact ⟨kind, hequal, (Except.ok.inj h).symm⟩
    · rw [hunknown] at h
      cases h
  · rintro ⟨kind, hequal, rfl⟩
    exact resolve_of_known (ActivationKind.name_eq_lowercase_iff.mpr hequal)

theorem resolve_eq_error_iff {s : String} {e : Error} :
    resolve s = .error e ↔
      (∀ kind : ActivationKind, ¬ Text.EqualUpToCase s kind.name) ∧
        e = .unknownActivation (Text.lowercase s) := by
  constructor
  · intro h
    rcases resolve_cases s with ⟨kind, -, hfound⟩ | ⟨hnone, hunknown⟩
    · rw [hfound] at h
      cases h
    · rw [hunknown] at h
      exact ⟨hnone, (Except.error.inj h).symm⟩
  · rintro ⟨hnone, rfl⟩
    refine resolve_of_unknown fun kind hname => ?_
    exact hnone kind (ActivationKind.name_eq_lowercase_iff.mp hname)

/-- Bringing a name into lower case beforehand, however often, does not change what it stands for. -/
theorem resolve_repeat (times : Nat) (s : String) :
    resolve (Nat.repeat Text.lowercase times s) = resolve s := by
  induction times with
  | zero => rfl
  | succ times ih =>
      show resolve (Text.lowercase (Nat.repeat Text.lowercase times s)) = resolve s
      rw [resolve_lowercase, ih]

end Activation

/-! ## Gates -/

namespace Cell

/-- The kind of a gate is that of its name. -/
theorem kind_activation {c : Cell} {gate : Nat} {name : String} (h : c.activations[gate]? = some name) :
    (c.activation gate).map Activation.kind = (Activation.resolve name).map Activation.kind := by
  unfold activation
  rw [h]
  show ((Activation.resolve name).map _).map Activation.kind = (Activation.resolve name).map Activation.kind
  cases Activation.resolve name with
  | error e => rfl
  | ok f => rfl

/-- The kind of a gate is that of the name it was configured with, after any number of maps. -/
theorem kind_rebuilt {d : Configuration} {c : Cell} (h : d.checked = .ok c) (times : Nat) {gate : Nat}
    {name : String} (hname : d.activations[gate]? = some name) :
    ∃ c', c.rebuilt times = .ok c' ∧
      (c'.activation gate).map Activation.kind = (Activation.resolve name).map Activation.kind := by
  refine ⟨c, rebuilt_of_checked h times, ?_⟩
  obtain ⟨-, rfl⟩ := Configuration.checked_eq_ok_iff.mp h
  rw [kind_activation (getElem?_activations_cell hname), Activation.resolve_lowercase]

end Cell

/-- **A name ignores the case of ASCII letters and nothing else.** It stands for an activation, without
    parameters, exactly when it is as long as the name of this activation and the same up to the case of the
    letters from `A` to `Z`. Otherwise it is unknown, and the error has its lowercase form; this is so for every
    text with a character beyond ASCII. A gate has the activation of its name or the same error, however often
    the name has been brought into lower case, and whether or not its cell has come back from a map. -/
theorem Activation.resolution_exact (s : String) :
    (∀ f, resolve s = .ok f ↔
      ∃ kind : ActivationKind, s.length = kind.name.length ∧ Text.EqualUpToCase s kind.name ∧
        f = ⟨kind, none, none⟩) ∧
    (∀ e, resolve s = .error e ↔
      (¬ ∃ kind : ActivationKind, s.length = kind.name.length ∧ Text.EqualUpToCase s kind.name) ∧
        e = .unknownActivation (Text.lowercase s)) ∧
    ((∃ c ∈ s.toList, 128 ≤ c.toNat) → resolve s = .error (.unknownActivation (Text.lowercase s))) ∧
    (∀ (c : Cell) (gate times : Nat), c.activations[gate]? = some (Nat.repeat Text.lowercase times s) →
      (c.activation gate).map Activation.kind = (resolve s).map Activation.kind) ∧
    ∀ (d : Configuration) (c : Cell) (gate times : Nat), d.checked = .ok c → d.activations[gate]? = some s →
      ∃ c', c.rebuilt times = .ok c' ∧
        (c'.activation gate).map Activation.kind = (resolve s).map Activation.kind := by
  have hlong {kind : ActivationKind} :
      s.length = kind.name.length ∧ Text.EqualUpToCase s kind.name ↔ Text.EqualUpToCase s kind.name :=
    and_iff_right_of_imp Text.EqualUpToCase.length_eq
  refine ⟨fun f => ?_, fun e => ?_, ?_, ?_, ?_⟩
  · simp only [← and_assoc, hlong]
    exact resolve_eq_ok_iff
  · simp only [hlong, not_exists]
    exact resolve_eq_error_iff
  · rintro ⟨c, hc, hforeign⟩
    refine resolve_eq_error_iff.mpr ⟨fun kind hequal => ?_, rfl⟩
    have hascii : c.toNat < 128 := hequal.ascii kind.isPlain_name c hc
    exact Nat.not_le_of_lt hascii hforeign
  · intro c gate times hname
    rw [Cell.kind_activation hname, resolve_repeat]
  · intro d c gate times hchecked hname
    exact Cell.kind_rebuilt hchecked times hname

/-- A name in mixed case, one with dotted capitals, which become two characters each, and the second gate of a
    cell that has the former, when the cell is new and when it has been written to a map three times. -/
theorem Activation.resolution_exact_dotted :
    resolve "HardSIGMOID" = .ok ⟨.hardSigmoid, none, none⟩ ∧
    resolve "SİGMOİD" = .error (.unknownActivation "si\u0307gmoi\u0307d") ∧
    ∃ c c' : Cell, (c.activation 1).map Activation.kind = .ok .hardSigmoid ∧ c.rebuilt 3 = .ok c' ∧
      (c'.activation 1).map Activation.kind = .ok .hardSigmoid := by
  obtain ⟨hfound, -, -, hcells, hgates⟩ := resolution_exact "HardSIGMOID"
  obtain ⟨-, -, hforeign, -⟩ := resolution_exact "SİGMOİD"
  have hmixed : resolve "HardSIGMOID" = .ok ⟨.hardSigmoid, none, none⟩ :=
    (hfound _).mpr ⟨.hardSigmoid, by decide, by decide, rfl⟩
  let d : Configuration := ⟨4, 0, ["SİGMOİD", "HardSIGMOID"], [], []⟩
  have hchecked : d.checked = .ok d.cell := Configuration.checked_eq_ok_iff.mpr ⟨by decide +kernel, rfl⟩
  have hnew := hcells d.cell 1 1 (Cell.getElem?_activations_cell rfl)
  obtain ⟨c', hback, hkind⟩ := hgates d d.cell 1 3 hchecked rfl
  rw [hmixed] at hnew hkind
  refine ⟨hmixed, ?_, d.cell, c', hnew, hback, hkind⟩
  exact (hforeign ⟨'İ', by decide, by decide⟩).trans (by decide +kernel)

end GateGraph
