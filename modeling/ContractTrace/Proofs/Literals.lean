import ContractTrace.Document.Value
import ContractTrace.Trace
import ContractTrace.Proofs.Range
import ContractTrace.Proofs.Reading

/-! Integers in documents and in traces. A document holds an integer as a number if 64 bits hold
it with its sign, a trace also if they hold it without one; any other integer is a text with
its shortest numeral. The reader does not ask for these bounds. It takes the numbers of 64 bits
and the numerals of the carrier, so it gives an integer back from either form. -/

namespace ContractTrace

/-! ### Forms of an integer -/

namespace Json

/-- The tree is the number `v` if `v` lies between the bounds, and its shortest numeral as a
text if not. -/
def Encodes (j : Json) (low high v : Int) : Prop :=
  if low ≤ v ∧ v < high then j = .integer v
  else ∃ s, j = .string s ∧ Decimal.Shortest s.toList v

theorem encodes_form (low high v : Int) :
    (if (decide (low ≤ v) && decide (v < high)) = true then .integer v
      else .string (Decimal.ofInt v) : Json).Encodes low high v := by
  simp only [Encodes, Bool.and_eq_true, decide_eq_true_eq]
  split_ifs with hbounds
  · rfl
  · refine ⟨_, rfl, ?_⟩
    rw [Decimal.ofInt, String.toList_ofList]
    exact Decimal.shortest_intChars v

variable {j : Json} {low high v : Int}

theorem Encodes.plain (h : j.Encodes low high v) (hlow : -twoPow 63 ≤ low)
    (hhigh : high ≤ twoPow 64) : j.Plain := by
  unfold Encodes at h
  split_ifs at h with hbounds
  · obtain rfl := h
    show isShort v = true
    simp only [isShort, Bool.and_eq_true, decide_eq_true_eq]
    omega
  · obtain ⟨s, rfl, -⟩ := h
    trivial

theorem Encodes.depth_eq_zero (h : j.Encodes low high v) : j.depth = 0 := by
  unfold Encodes at h
  split_ifs at h
  · obtain rfl := h
    rfl
  · obtain ⟨s, rfl, -⟩ := h
    rfl

end Json

namespace Value

theorem encodes_literalJson (v : Int) : (literalJson v).Encodes (-twoPow 63) (twoPow 63) v :=
  Json.encodes_form _ _ v

theorem encodes_traceJson (v : Int) (ty : IntegerType) :
    (Value.integer v ty).traceJson.Encodes (-twoPow 63) (twoPow 64) v := by
  rw [traceJson]
  exact Json.encodes_form _ _ v

end Value

/-! ### The reader -/

namespace Document

theorem literal?_eq_some_iff {s : String} {v : Int} :
    literal? s = some v ↔ Decimal.Signed s.toList v ∧ Carrier.Holds v := by
  simp only [literal?, Option.bind_eq_some_iff, Decimal.signed?_eq_some_iff,
    Carrier.hold_eq_some_iff]
  constructor
  · rintro ⟨_, hs, rfl, hv⟩
    exact ⟨hs, hv⟩
  · rintro ⟨hs, hv⟩
    exact ⟨v, hs, rfl, hv⟩

theorem integerLiteral_string_eq_ok_iff {s : String} {v : Int} :
    integerLiteral (.string s) = .ok v ↔ Decimal.Signed s.toList v ∧ Carrier.Holds v := by
  rw [← literal?_eq_some_iff, integerLiteral]
  cases literal? s <;> simp

/-- An integer is read back whatever bounds its writer has, as long as its numbers have 64 bits. -/
theorem integerLiteral_of_encodes {j : Json} {low high v : Int} (h : j.Encodes low high v)
    (hlow : -twoPow 63 ≤ low) (hhigh : high ≤ twoPow 64) (hv : Carrier.Holds v) :
    integerLiteral j = .ok v := by
  have hplain := h.plain hlow hhigh
  unfold Json.Encodes at h
  split_ifs at h
  · obtain rfl := h
    exact if_pos hplain
  · obtain ⟨s, rfl, hs⟩ := h
    exact integerLiteral_string_eq_ok_iff.2 ⟨hs.signed, hv⟩

/-- The compact text of a tree is read as the tree is. -/
theorem ofText_compact_eq {α : Type} (reader : Reader α) {j : Json} (hp : j.Plain)
    (hd : j.depth < Json.depthLimit) : ofText reader j.compact = reader j := by
  simp only [ofText, Json.parse_compact hp hd]
  cases reader j <;> rfl

theorem ofText_integerLiteral_of_encodes {j : Json} {low high v : Int}
    (h : j.Encodes low high v) (hlow : -twoPow 63 ≤ low) (hhigh : high ≤ twoPow 64)
    (hv : Carrier.Holds v) : ofText integerLiteral j.compact = .ok v := by
  have hdepth : j.depth < Json.depthLimit := by
    rw [h.depth_eq_zero]
    decide
  rw [ofText_compact_eq _ (h.plain hlow hhigh) hdepth]
  exact integerLiteral_of_encodes h hlow hhigh hv

/-- Every integer of the carrier is read back, as a tree and as a text, from the form that it has
in a document and from the form that it has in a trace. A string is read exactly if it is a
numeral, with a sign or without one, of an integer of the carrier, and to that integer. -/
theorem integerLiteral_decodes :
    (∀ v, Carrier.Holds v → ∀ ty : IntegerType,
      ((Value.literalJson v).Encodes (-twoPow 63) (twoPow 63) v ∧
        integerLiteral (Value.literalJson v) = .ok v ∧
        ofText integerLiteral (Value.literalJson v).compact = .ok v) ∧
      (Value.integer v ty).traceJson.Encodes (-twoPow 63) (twoPow 64) v ∧
        integerLiteral (Value.integer v ty).traceJson = .ok v ∧
        ofText integerLiteral (Value.integer v ty).traceJson.compact = .ok v) ∧
    ∀ s, ofText integerLiteral (Json.string s).compact = integerLiteral (.string s) ∧
      ∀ v, integerLiteral (.string s) = .ok v ↔ Decimal.Signed s.toList v ∧ Carrier.Holds v := by
  have hbound : (twoPow 63 : Int) ≤ twoPow 64 := by decide
  refine ⟨fun v hv ty => ⟨?_, ?_⟩, fun s => ⟨?_, fun v => integerLiteral_string_eq_ok_iff⟩⟩
  · have h := Value.encodes_literalJson v
    exact ⟨h, integerLiteral_of_encodes h le_rfl hbound hv,
      ofText_integerLiteral_of_encodes h le_rfl hbound hv⟩
  · have h := Value.encodes_traceJson v ty
    exact ⟨h, integerLiteral_of_encodes h le_rfl le_rfl hv,
      ofText_integerLiteral_of_encodes h le_rfl le_rfl hv⟩
  · exact ofText_compact_eq _ trivial (show 0 < Json.depthLimit by decide)

/-- The least integer of the carrier, whose magnitude lies beyond it; the least one that is a
number in traces only; and the least natural number that is refused. -/
theorem integerLiteral_decodes_bounds :
    (Carrier.Holds (-twoPow 127) ∧
      integerLiteral (.string "-170141183460469231731687303715884105728") =
        .ok (-twoPow 127)) ∧
    (Carrier.Holds (twoPow 63) ∧
      ofText integerLiteral (Json.string "9223372036854775808").compact = .ok (twoPow 63) ∧
      ofText integerLiteral (Json.integer (twoPow 63)).compact = .ok (twoPow 63)) ∧
    ∀ v, integerLiteral (.string "170141183460469231731687303715884105728") ≠ .ok v := by
  have hleast : Carrier.Holds (-twoPow 127) := by decide
  have hlong : Carrier.Holds (twoPow 63) := by decide
  obtain ⟨hforms, hstrings⟩ := integerLiteral_decodes
  refine ⟨⟨hleast, (hforms _ hleast ⟨true, 256⟩).1.2.1⟩,
    ⟨hlong, (hforms _ hlong ⟨false, 64⟩).1.2.2, (hforms _ hlong ⟨false, 64⟩).2.2.2⟩, ?_⟩
  intro v hv
  obtain ⟨hsigned, hholds⟩ := ((hstrings _).2 v).1 hv
  have hvalue : some (twoPow 127 : Int) = some v := Decimal.signed?_eq_some_iff.2 hsigned
  obtain rfl := Option.some.inj hvalue
  exact absurd hholds (by decide)

end Document

end ContractTrace
