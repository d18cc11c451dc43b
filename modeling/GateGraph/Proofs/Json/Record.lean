import GateGraph.Json.Record
import GateGraph.Proofs.Json.Number
import GateGraph.Proofs.Json.Tree

/-!
# `GateGraph.Proofs.Json.Record` — records that are read back

Records are objects with known names, and no name occurs twice. So each field is found, whatever their order,
and what it holds is read as it was written: strings, natural numbers of 64 bits, and lists of what can be read.

## Contents
- `legible_text`, `legible_natural`, `legible_real`, `legible_array` and `legible_record`: everything that is
  written can be read.
- `mapM_eq_some_map`, `mapM_eq_none`, `forall₂_of_mapM` and `mapM_eq_some_iff`: reading item by item.
- `Number.ofNumeral?_eq_natural_iff`: the numerals of natural numbers.
- `members?_record`: a record gives back its fields.
- `natural?_natural`, `string?_text` and `list?_array`: what a field holds.
-/

namespace GateGraph.Json

-- powers of whole numbers are the built-in ones, whatever is imported beside this module
attribute [local instance (2000)] instPowNat

namespace Tree

/-! ## Everything that is written can be read -/

theorem legible_null : Legible .null := fun _ h => List.mem_singleton.mp h ▸ trivial

theorem legible_text (s : String) : Legible (.text s) := fun _ h => List.mem_singleton.mp h ▸ ⟨s.toList, rfl⟩

theorem legible_number {n : Numeral} (h : n.WellFormed) : Legible (.number n) :=
  fun _ hmem => List.mem_singleton.mp hmem ▸ h

theorem legible_natural (n : Nat) : Legible (.natural n) := legible_number (Numeral.wellFormed_ofNat n)

theorem legible_real (x : Binary32) : Legible (.real singleStyle x) := by
  unfold real
  split
  · next hx => exact legible_number (wellFormed_numeral hx)
  · exact legible_null

theorem legible_itemTokens {ts : List Tree} (h : ∀ t ∈ ts, t.Legible) :
    ∀ token ∈ itemTokens ts, token.Legible := by
  induction ts with
  | nil => simp [itemTokens, Token.Legible]
  | cons t ts ih =>
      simp only [itemTokens, List.mem_cons, List.mem_append]
      rintro token (rfl | hhead | htail)
      · trivial
      · exact h t List.mem_cons_self token hhead
      · exact ih (fun t ht => h t (List.mem_cons_of_mem _ ht)) token htail

theorem legible_array {ts : List Tree} (h : ∀ t ∈ ts, t.Legible) : Legible (.array ts) := by
  cases ts with
  | nil => simp [Legible, tokens, Token.Legible]
  | cons t ts =>
      have htokens := legible_itemTokens h
      simp only [itemTokens, List.mem_cons] at htokens
      simp only [Legible, tokens, List.mem_cons]
      rintro token (rfl | hmem)
      · trivial
      · exact htokens token (Or.inr hmem)

theorem legible_fieldTokens {fields : List (String × Tree)} (h : ∀ f ∈ fields, f.2.Legible) :
    ∀ token ∈ fieldTokens (fields.map fun (k, t) => (k.toList.map .char, t)), token.Legible := by
  induction fields with
  | nil => simp [fieldTokens, Token.Legible]
  | cons f fields ih =>
      simp only [List.map_cons, fieldTokens, List.mem_cons, List.mem_append]
      rintro token (rfl | rfl | rfl | hhead | htail)
      · trivial
      · exact ⟨f.1.toList, rfl⟩
      · trivial
      · exact h f List.mem_cons_self token hhead
      · exact ih (fun f hf => h f (List.mem_cons_of_mem _ hf)) token htail

theorem legible_record {fields : List (String × Tree)} (h : ∀ f ∈ fields, f.2.Legible) :
    Legible (.record fields) := by
  cases fields with
  | nil => simp [Legible, record, tokens, Token.Legible]
  | cons f fields =>
      have htokens := legible_fieldTokens h
      simp only [List.map_cons, fieldTokens, List.mem_cons] at htokens
      simp only [Legible, record, List.map_cons, tokens, List.mem_cons]
      rintro token (rfl | hmem)
      · trivial
      · exact htokens token (Or.inr hmem)

end Tree

/-! ## Fields -/

@[simp] theorem stringOf?_map_char (s : String) : stringOf? (s.toList.map .char) = some s := by
  unfold stringOf?
  rw [Quoted.join?_map_char, Option.map_some, String.ofList_toList]

/-- Two readings that agree on the items of a list agree on the list. -/
theorem mapM_congr {α β : Type} {read read' : α → Option β} {as : List α} (h : ∀ a ∈ as, read a = read' a) :
    as.mapM read = as.mapM read' := by
  induction as with
  | nil => rfl
  | cons a as ih =>
      rw [List.mapM_cons, List.mapM_cons, h a List.mem_cons_self, ih fun b hb => h b (List.mem_cons_of_mem a hb)]

/-- Reading every item of a list that can be read. -/
theorem mapM_eq_some_map {α β : Type} {read : α → Option β} {g : α → β} {as : List α}
    (h : ∀ a ∈ as, read a = some (g a)) : as.mapM read = some (as.map g) :=
  (mapM_congr h).trans List.mapM_pure

/-- Reading a list whose items are read as what they are. -/
theorem mapM_eq_some_self {α : Type} {read : α → Option α} {as : List α} (h : ∀ a ∈ as, read a = some a) :
    as.mapM read = some as := by
  rw [mapM_eq_some_map (g := id) h, List.map_id]

/-- Reading a list fails where one of its items cannot be read. -/
theorem mapM_eq_none {α β : Type} {read : α → Option β} {as : List α} :
    as.mapM read = none ↔ ∃ a ∈ as, read a = none := by
  induction as with
  | nil => simp [List.mapM_nil, pure]
  | cons a as ih =>
      rw [List.mapM_cons]
      simp only [List.mem_cons, exists_eq_or_imp, ← ih]
      cases read a <;> cases as.mapM read <;> simp

/-- The items of a list that has been read, each beside what it was read as. -/
theorem forall₂_of_mapM {α β : Type} {read : α → Option β} {as : List α} {bs : List β}
    (h : as.mapM read = some bs) : List.Forall₂ (fun a b => read a = some b) as bs := by
  induction as generalizing bs with
  | nil =>
      obtain rfl : [] = bs := Option.some.inj h
      exact .nil
  | cons a as ih =>
      simp only [List.mapM_cons, bind, Option.bind_eq_some_iff, pure, Option.some.injEq] at h
      obtain ⟨b, ha, bs, has, rfl⟩ := h
      exact .cons ha (ih has)

/-- If the values that can be read are the wrapped ones, then the lists that can be read are lists of them. -/
theorem mapM_eq_some_iff {α β γ : Type} {read : α → Option β} {wrap : γ → α} {g : γ → β}
    (h : ∀ a b, read a = some b ↔ ∃ c, a = wrap c ∧ b = g c) {as : List α} {bs : List β} :
    as.mapM read = some bs ↔ ∃ cs : List γ, as = cs.map wrap ∧ bs = cs.map g := by
  constructor
  · intro hread
    have hitems := forall₂_of_mapM hread
    clear hread
    induction hitems with
    | nil => exact ⟨[], rfl, rfl⟩
    | cons hitem _ ih =>
        obtain ⟨c, rfl, rfl⟩ := (h _ _).mp hitem
        obtain ⟨cs, rfl, rfl⟩ := ih
        exact ⟨c :: cs, rfl, rfl⟩
  · rintro ⟨cs, rfl, rfl⟩
    rw [List.mapM_map]
    exact mapM_eq_some_map fun c _ => (h (wrap c) (g c)).mpr ⟨c, rfl, rfl⟩

/-- Among fields with different names there is one with a given name. -/
theorem filter_name {α : Type} {fields : List (String × α)} (hnodup : (fields.map (·.1)).Nodup)
    {field : String × α} (hmem : field ∈ fields) : fields.filter (·.1 == field.1) = [field] := by
  induction fields with
  | nil => exact absurd hmem List.not_mem_nil
  | cons f fields ih =>
      rw [List.map_cons, List.nodup_cons] at hnodup
      obtain ⟨hnot, hnodup⟩ := hnodup
      rcases List.mem_cons.mp hmem with rfl | hmem
      · have hnone : fields.filter (·.1 == field.1) = [] := by
          rw [List.filter_eq_nil_iff]
          intro g hg hname
          exact hnot (beq_iff_eq.mp hname ▸ List.mem_map_of_mem hg)
        rw [List.filter_cons_of_pos (by simp), hnone]
      · have hne : f.1 ≠ field.1 := fun heq => hnot (heq ▸ List.mem_map_of_mem hmem)
        rw [List.filter_cons_of_neg (by simp [hne]), ih hnodup hmem]

/-- The fields of a record, by their names. -/
theorem mapM_field? {α : Type} {fields : List (String × α)} (hnodup : (fields.map (·.1)).Nodup) :
    ((fields.map (·.1)).mapM fun name => field? name fields) = some (fields.map fun f => some f.2) := by
  rw [List.mapM_map]
  refine mapM_eq_some_map fun f hf => ?_
  simp only [Function.comp_apply, field?, filter_name hnodup hf]

/-- Natural numbers come from the numerals without sign, point and exponent that are below `2 ^ 64`. -/
theorem Number.ofNumeral?_eq_natural_iff {numeral : Numeral} {n : UInt64} :
    ofNumeral? numeral = some (.natural n) ↔
      numeral.isWhole = true ∧ numeral.negative = false ∧ Decimal.value numeral.whole = n.toNat := by
  unfold ofNumeral?
  constructor
  · intro h
    simp only at h
    split at h
    · next hnatural =>
        obtain ⟨hwhole, hnegative, hbound⟩ := hnatural
        obtain rfl := natural.inj (Option.some.inj h)
        rw [UInt64.toNat_ofNat_of_lt' hbound]
        exact ⟨hwhole, Bool.eq_false_iff.mpr hnegative, rfl⟩
    · split at h
      · cases h
      · obtain ⟨x, -, hx⟩ := Option.map_eq_some_iff.mp h
        cases hx
  · rintro ⟨hwhole, hnegative, hvalue⟩
    have hbound : n.toNat < 2 ^ 64 := n.toNat_lt
    simp only [hvalue]
    rw [if_pos ⟨hwhole, Bool.eq_false_iff.mp hnegative, hbound⟩, UInt64.ofNat_toNat]

namespace Tree

theorem named?_fields (fields : List (String × Tree)) :
    named? (fields.map fun (k, t) => (k.toList.map .char, t)) = some fields := by
  unfold named?
  rw [List.mapM_map]
  refine mapM_eq_some_self fun f _ => ?_
  simp only [Function.comp_apply, stringOf?_map_char, Option.map_some]

/-- **A record gives back its fields**, in the order of their names. -/
theorem members?_record (fields : List (String × Tree)) (hnodup : (fields.map (·.1)).Nodup) :
    (record fields).members? (fields.map (·.1)) = some (fields.map fun f => some f.2) := by
  unfold record members?
  simp only [named?_fields, bind, Option.bind_some]
  exact mapM_field? hnodup

/-! ## What fields hold -/

theorem natural?_natural {n : Nat} (h : n < 2 ^ 64) : (natural n).natural? = some (UInt64.ofNat n) := by
  have hnumber : Number.ofNumeral? (.ofNat n) = some (.natural (UInt64.ofNat n)) := by
    refine Number.ofNumeral?_eq_natural_iff.mpr ⟨rfl, rfl, ?_⟩
    rw [UInt64.toNat_ofNat_of_lt' h]
    exact Decimal.value_digits n
  simp only [natural, natural?, hnumber, Option.bind_some, Number.natural?]

theorem string?_text (s : String) : (text s).string? = some s := stringOf?_map_char s

/-- A list is read item by item. -/
theorem list?_array {α β : Type} {read : Tree → Option β} {write : α → Tree} (as : List α) :
    list? read (.array (as.map write)) = as.mapM fun a => read (write a) := List.mapM_map

end Tree

end GateGraph.Json
