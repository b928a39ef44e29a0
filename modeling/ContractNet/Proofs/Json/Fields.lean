import ContractNet.Json.Fields
import ContractNet.Proofs.Json.Value
import ContractNet.Proofs.Text.Basic

/-!
# Fields that are read

* `Json.keyMatches_ofString`: whether one literal spells another;
* `Json.repaired_of_readText`, `Json.repaired_of_readOptText`: texts that are read need no repair;
* `Json.IsInt64`: the integers that fit a field, which are those that can be read
  (`Json.isInt64_of_readInt`) and are read as they were written (`Json.readInt_int`);
* `Json.Slots.forall_backing_replace`: what holds of all elements holds of them after a list was
  read over them.
-/

namespace ContractNet.Json

theorem keyMatches_ofString (name key : String) :
    keyMatches name key = decide (key.toList.map foldChar = name.toList.map foldChar) := by
  rw [keyMatches, Text.chars_ofString, Text.chars_ofString]

@[simp] theorem inField_ok {α : Type} (record name : Text) (a : α) :
    inField record name (.ok a) = .ok a := rfl

@[simp] theorem inField_eq_ok_iff {α : Type} {record name : Text} {x : Except TypeError α} {a : α} :
    inField record name x = .ok a ↔ x = .ok a := by
  cases x <;> simp [inField, Except.mapError]

/-- A field is set to what is read for it. -/
theorem inField_bind_eq_ok_iff {α β : Type} {record name : Text} {x : Except TypeError β}
    {set : β → α} {a : α} :
    (inField record name x >>= fun b => pure (set b)) = .ok a ↔ ∃ b, x = .ok b ∧ set b = a := by
  simp only [bind_eq_ok_iff, pure_eq_ok_iff, inField_eq_ok_iff]

/-! ### Texts -/

theorem repaired_of_readText {old t : Text} {j : Json} (h : readText old j = .ok t)
    (hold : old.repaired = old) (hj : j.repaired = j) : t.repaired = t := by
  cases j with
  | string s =>
    obtain rfl := Except.ok.inj h
    simpa using hj
  | null => exact Except.ok.inj h ▸ hold
  | _ => cases h

theorem repaired_of_readOptText {o : Option Text} {j : Json} (h : readOptText j = .ok o)
    (hj : j.repaired = j) : ∀ t ∈ o.toList, t.repaired = t := by
  cases j with
  | string s =>
    obtain rfl := Except.ok.inj h
    simpa using hj
  | null =>
    obtain rfl := Except.ok.inj h
    simp
  | _ => cases h

/-! ### Integers -/

/-- The integer fits in 64 bits. -/
def IsInt64 (i : Int) : Prop := Int64.minValue.toInt ≤ i ∧ i ≤ Int64.maxValue.toInt

instance (i : Int) : Decidable (IsInt64 i) := inferInstanceAs (Decidable (_ ∧ _))

theorem isInt64_of_int64? {n : Text} {i : Int} (h : int64? n = some i) : IsInt64 i := by
  have hrange := (Option.filter_eq_some_iff.1 h).2
  rwa [Bool.and_eq_true, decide_eq_true_eq, decide_eq_true_eq] at hrange

theorem isInt64_of_readInt {old i : Int} {j : Json} (h : readInt old j = .ok i)
    (hold : IsInt64 old) : IsInt64 i := by
  cases j with
  | number n =>
    rw [readInt] at h
    split at h
    · rename_i k hk
      exact Except.ok.inj h ▸ isInt64_of_int64? hk
    · cases h
  | null => exact Except.ok.inj h ▸ hold
  | _ => cases h

theorem int64?_integer {i : Int} (h : IsInt64 i) : int64? (Text.integer i) = some i := by
  have hdigits : ∀ n, (Text.decimal n).all Text.isDigit = true := fun n =>
    List.all_eq_true.2 fun _ => Text.isDigit_of_mem_decimal
  have hfits : (some i).filter (fun n => Int64.minValue.toInt ≤ n && n ≤ Int64.maxValue.toInt) =
      some i := by
    refine Option.filter_eq_some_iff.2 ⟨rfl, ?_⟩
    rwa [Bool.and_eq_true, decide_eq_true_eq, decide_eq_true_eq]
  cases i with
  | ofNat n =>
    rw [Text.integer, int64?, if_pos (hdigits n), Text.digitsValue_decimal]
    · exact hfits
    · intro ds hds
      -- no digit is a minus sign
      have hminus : Text.isDigit 0x2d = true :=
        Text.isDigit_of_mem_decimal (n := n) (hds ▸ List.mem_cons_self)
      cases hminus
  | negSucc n =>
    change int64? (0x2d :: Text.decimal (n + 1)) = _
    rw [int64?, if_pos (hdigits (n + 1)), Text.digitsValue_decimal]
    exact hfits

/-- An integer that fits is read as it was written. -/
theorem readInt_int (old : Int) {i : Int} (h : IsInt64 i) : readInt old (int i) = .ok i := by
  rw [int, readInt, int64?_integer h]

/-! ### Lists -/

theorem Slots.forall_backing_replace {α : Type} {P : α → Prop} {s : Slots α} {new : List α}
    (hs : ∀ a ∈ s.backing, P a) (hnew : ∀ a ∈ new, P a) : ∀ a ∈ (s.replace new).backing, P a := by
  intro a ha
  rw [replace] at ha
  split_ifs at ha
  · cases ha
  · rcases List.mem_append.1 ha with ha | ha
    · exact hnew a ha
    · exact hs a (List.mem_of_mem_drop ha)

@[simp] theorem Slots.items_replace {α : Type} (s : Slots α) (new : List α) :
    (s.replace new).items = new := by
  rw [replace]
  split_ifs with h
  · exact (List.isEmpty_iff.1 h).symm
  · rfl

end ContractNet.Json
