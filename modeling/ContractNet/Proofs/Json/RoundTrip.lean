import ContractNet.Proofs.Json.Quote
import ContractNet.Proofs.Json.Value
import ContractNet.Proofs.Text.Basic

/-!
# Documents written and read back

* `Json.Tidy` holds of the values that are written as documents: their numbers are integers, and
  they are not too deep;
* `Json.ReadBy value j` says that `value` reads what is written for `j`, on whichever level it
  stands; lists are read if each of their items is (`Json.readItems_pretty`,
  `Json.readMembers_pretty`);
* `Json.parse_pretty`: the document of a tidy value is read as that value, with U+FFFD in place of
  stray bytes.
-/

namespace ContractNet.Json

/-- All numbers of the value are integers, and at most `d` arrays and objects stand in one
another. -/
inductive Tidy : Nat → Json → Prop
  | null (d : Nat) : Tidy d null
  | bool (d : Nat) (b : Bool) : Tidy d (bool b)
  | int (d : Nat) (i : Int) : Tidy d (int i)
  | string (d : Nat) (t : Text) : Tidy d (string t)
  | array {d : Nat} {js : List Json} (h : ∀ j ∈ js, Tidy d j) : Tidy (d + 1) (array js)
  | object {d : Nat} {ms : List (Text × Json)} (h : ∀ m ∈ ms, Tidy d m.2) :
      Tidy (d + 1) (object ms)

theorem Tidy.depth_le {d : Nat} {j : Json} (h : j.Tidy d) : j.depth ≤ d := by
  induction h with
  | array _ ih =>
    rw [depth, Nat.add_comm, Nat.add_le_add_iff_right]
    exact depthAll_le_iff.2 ih
  | object _ ih =>
    rw [depth, Nat.add_comm, Nat.add_le_add_iff_right]
    exact depthMembers_le_iff.2 ih
  | _ => simp [depth, Json.int]

theorem Tidy.mono {d e : Nat} {j : Json} (h : j.Tidy d) (hde : d ≤ e) : j.Tidy e := by
  induction h generalizing e with
  | null => exact .null e
  | bool _ b => exact .bool e b
  | int _ i => exact .int e i
  | string _ t => exact .string e t
  | array _ ih =>
    obtain ⟨e, rfl⟩ : ∃ k, e = k + 1 := ⟨e - 1, by omega⟩
    exact .array fun j hj => ih j hj (by omega)
  | object _ ih =>
    obtain ⟨e, rfl⟩ : ∃ k, e = k + 1 := ⟨e - 1, by omega⟩
    exact .object fun m hm => ih m hm (by omega)

theorem Tidy.record {d : Nat} {ms : List (Text × Option Json)}
    (h : ∀ m ∈ ms, ∀ j ∈ m.2, Tidy d j) : Tidy (d + 1) (record ms) := by
  refine .object fun m hm => ?_
  obtain ⟨⟨k, o⟩, hko, hm⟩ := List.mem_filterMap.1 hm
  obtain ⟨j, hj, rfl⟩ := Option.map_eq_some_iff.1 hm
  exact h _ hko j hj

/-- The text goes on with a byte that stands after values: a comma, a space or an end of line. -/
def Delimited (t : Text) : Prop := ∃ b r, t = b :: r ∧ (b = 0x2c ∨ b = 0x20 ∨ b = 0x0a)

/-- The text starts with a byte that values start with; in particular it closes nothing. -/
def Opens (t : Text) : Prop := ∃ b r, t = b :: r ∧ isSpace b = false ∧ b ≠ 0x5d

/-! ### White space -/

theorem skipSpace_cons {b : UInt8} (hb : isSpace b = false) (t : Text) :
    skipSpace (b :: t) = b :: t :=
  List.dropWhile_cons_of_neg (by simp [hb])

theorem skipSpace_newLine (level : Nat) (t : Text) :
    skipSpace (newLine level ++ t) = skipSpace t := by
  refine List.dropWhile_append_of_pos fun b hb => ?_
  rcases List.mem_append.1 hb with hb | hb
  · rw [List.mem_singleton.1 hb]
    rfl
  · rw [(List.mem_replicate.1 hb).2]
    rfl

theorem Opens.skipSpace_append {t : Text} (h : Opens t) (r : Text) :
    skipSpace (t ++ r) = t ++ r := by
  obtain ⟨b, t, rfl, hb, -⟩ := h
  exact skipSpace_cons hb _

theorem delimited_newLine (level : Nat) (t : Text) : Delimited (newLine level ++ t) :=
  ⟨0x0a, _, rfl, .inr (.inr rfl)⟩

theorem delimited_items (level : Nat) (js : List Json) {t : Text} (ht : Delimited t) :
    Delimited (prettyItems level js ++ t) := by
  cases js with
  | nil => rwa [prettyItems]
  | cons j js =>
    rw [prettyItems]
    exact ⟨0x2c, _, rfl, .inl rfl⟩

theorem delimited_members (level : Nat) (ms : List (Text × Json)) {t : Text} (ht : Delimited t) :
    Delimited (prettyMembers level ms ++ t) := by
  cases ms with
  | nil => rwa [prettyMembers]
  | cons m ms =>
    rw [prettyMembers]
    exact ⟨0x2c, _, rfl, .inl rfl⟩

/-! ### Numbers -/

theorem digits_decimal (place : SyntaxPlace) (n : Nat) {t : Text} (ht : Delimited t) :
    digits place (Text.decimal n ++ t) = .ok (Text.decimal n, t) := by
  have hspan : (Text.decimal n ++ t).takeWhile Text.isDigit = Text.decimal n := by
    obtain ⟨b, r, rfl, hb⟩ := ht
    have hstop : Text.isDigit b = false := by rcases hb with rfl | rfl | rfl <;> rfl
    rw [List.takeWhile_append_of_pos fun _ => Text.isDigit_of_mem_decimal,
      List.takeWhile_cons_of_neg (by simp [hstop]), List.append_nil]
  obtain ⟨b, ds, hds, -⟩ := Text.exists_decimal_eq_cons n
  have hne : (Text.decimal n).isEmpty = false := by rw [hds]; rfl
  rw [digits, hspan, hne, List.drop_left]
  rfl

theorem wholePart_decimal (place : SyntaxPlace) (n : Nat) {t : Text} (ht : Delimited t) :
    wholePart place (Text.decimal n ++ t) = .ok (Text.decimal n, t) := by
  by_cases hn : n = 0
  · subst hn
    rfl
  · obtain ⟨b, ds, hds, hzero⟩ := Text.exists_decimal_eq_cons n
    rw [wholePart, digits_decimal place n ht]
    intro r hr
    rw [hds, List.cons_append] at hr
    exact hn (hzero (List.cons.inj hr).1)

/-- Nothing of a number follows a value. -/
theorem fraction_delimited {t : Text} (ht : Delimited t) : fraction t = .ok ([], t) := by
  obtain ⟨b, r, rfl, hb⟩ := ht
  rcases hb with rfl | rfl | rfl <;> rfl

theorem exponent_delimited {t : Text} (ht : Delimited t) : exponent t = .ok ([], t) := by
  obtain ⟨b, r, rfl, hb⟩ := ht
  rcases hb with rfl | rfl | rfl <;> rfl

theorem readNumber_integer (i : Int) {t : Text} (ht : Delimited t) :
    readNumber (Text.integer i ++ t) = .ok (Text.integer i, t) := by
  cases i with
  | ofNat n =>
    obtain ⟨b, ds, hds, -⟩ := Text.exists_decimal_eq_cons n
    have hsign : ((Text.decimal n ++ t).take 1).filter (· = '-'.toUInt8) = [] := by
      have hdigit : Text.isDigit b = true :=
        Text.isDigit_of_mem_decimal (n := n) (hds ▸ List.mem_cons_self)
      have hne : b ≠ '-'.toUInt8 := by rintro rfl; cases hdigit
      simp [hds, hne]
    rw [Text.integer, readNumber, hsign]
    simp [wholePart_decimal _ n ht, fraction_delimited ht, exponent_delimited ht, bind,
      Except.bind, pure, Except.pure]
  | negSucc n =>
    have hsign : ((Text.integer (.negSucc n) ++ t).take 1).filter (· = '-'.toUInt8) =
        ['-'.toUInt8] := rfl
    rw [readNumber, hsign]
    simp [wholePart_decimal _ _ ht, fraction_delimited ht, exponent_delimited ht, bind,
      Except.bind, pure, Except.pure, Text.integer]

/-- An integer starts with a digit or a minus sign. -/
theorem exists_integer_eq_cons (i : Int) :
    ∃ b r, Text.integer i = b :: r ∧ (Text.isDigit b = true ∨ b = 0x2d) := by
  cases i with
  | ofNat n =>
    obtain ⟨b, ds, hds, -⟩ := Text.exists_decimal_eq_cons n
    exact ⟨b, ds, hds, .inl (Text.isDigit_of_mem_decimal (n := n) (hds ▸ List.mem_cons_self))⟩
  | negSucc n => exact ⟨0x2d, _, rfl, .inr rfl⟩

/-! ### Scalars -/

theorem readValue_scalar {b : UInt8} (harray : b ≠ 0x5b) (hobject : b ≠ 0x7b) (d : Nat)
    (t : Text) : readValue d (b :: t) = readScalar (b :: t) := by
  cases d with
  | zero =>
    rw [readValue]
    · exact fun _ h => harray (List.cons.inj h).1
    · exact fun _ h => hobject (List.cons.inj h).1
  | succ d =>
    rw [readValue]
    · exact fun _ h => harray (List.cons.inj h).1
    · exact fun _ h => hobject (List.cons.inj h).1

theorem quote_append (t r : Text) : quote documentEscapes t ++ r =
    0x22 :: (t.pieces.flatMap (escapePiece documentEscapes) ++ 0x22 :: r) := by
  rw [quote, List.append_assoc, List.append_assoc]
  rfl

theorem readScalar_string (t rest : Text) :
    readScalar (quote documentEscapes t ++ rest) = .ok (string t.repaired, rest) := by
  have hstep : ∀ r, readScalar (0x22 :: r) =
      readString r >>= fun x => pure (string x.1, x.2) := fun _ => rfl
  rw [quote_append, hstep, readString_quote]
  rfl

theorem readScalar_integer (i : Int) {t : Text} (ht : Delimited t) :
    readScalar (Text.integer i ++ t) = .ok (int i, t) := by
  obtain ⟨b, r, hi, hb⟩ := exists_integer_eq_cons i
  have hne : ∀ x : UInt8, Text.isDigit x = false → x ≠ 0x2d → b ≠ x := by
    rintro x hx hminus rfl
    rcases hb with hb | hb
    · rw [hx] at hb
      cases hb
    · exact hminus hb
  have hread := readNumber_integer i ht
  rw [hi, List.cons_append] at hread ⊢
  rw [readScalar, if_neg (hne _ rfl (by decide)), if_neg (hne _ rfl (by decide)),
    if_neg (hne _ rfl (by decide)), if_neg (hne _ rfl (by decide)), hread, int, hi]
  rfl

/-! ### Lists -/

/-- What is written for `j`, on whichever level, is read by `value` as `j`. -/
structure ReadBy (value : Text → Except SyntaxError (Json × Text)) (j : Json) : Prop where
  opens : ∀ level, Opens (prettyAt level j)
  reads : ∀ level t, Delimited t → value (prettyAt level j ++ t) = .ok (j.repaired, t)

section Lists

variable {value : Text → Except SyntaxError (Json × Text)}

/-- Items are read one by one up to the closing bracket; each costs one unit of fuel. -/
theorem readItems_pretty (level outer : Nat) (rest : Text) {j : Json} {js : List Json}
    (h : ∀ x ∈ j :: js, ReadBy value x) {fuel : Nat} (hfuel : js.length < fuel) {t : Text}
    (ht : skipSpace t =
      prettyAt level j ++ (prettyItems level js ++ (newLine outer ++ 0x5d :: rest))) :
    readItems value fuel t = .ok ((j :: js).map repaired, rest) := by
  have hend := delimited_newLine outer (0x5d :: rest)
  -- along the items after the first, with less fuel for each
  induction js generalizing j fuel t with
  | nil =>
    obtain ⟨fuel, rfl⟩ : ∃ k, fuel = k + 1 := ⟨fuel - 1, by omega⟩
    rw [prettyItems, List.nil_append] at ht
    rw [readItems, ht, (h j List.mem_cons_self).reads level _ hend]
    simp only [bind, Except.bind, skipSpace_newLine, skipSpace_cons (b := 0x5d) rfl]
    rfl
  | cons k js ih =>
    obtain ⟨fuel, rfl⟩ : ∃ k, fuel = k + 1 := ⟨fuel - 1, by omega⟩
    have hnext : prettyItems level (k :: js) ++ (newLine outer ++ 0x5d :: rest) =
        0x2c :: (newLine level ++ (prettyAt level k ++
          (prettyItems level js ++ (newLine outer ++ 0x5d :: rest)))) := by
      rw [prettyItems]
      simp only [List.append_assoc]
      rfl
    have hspace : skipSpace (newLine level ++ (prettyAt level k ++
        (prettyItems level js ++ (newLine outer ++ 0x5d :: rest)))) =
        prettyAt level k ++ (prettyItems level js ++ (newLine outer ++ 0x5d :: rest)) := by
      rw [skipSpace_newLine, ((h k (by simp)).opens level).skipSpace_append]
    have hrest := ih (fun x hx => h x (List.mem_cons_of_mem _ hx)) (by simpa using hfuel) hspace
    rw [readItems, ht, (h j List.mem_cons_self).reads level _ (delimited_items level _ hend)]
    simp only [bind, Except.bind, hnext, skipSpace_cons (b := 0x2c) rfl, hrest]
    rfl

theorem length_le_prettyItems (level : Nat) (js : List Json) :
    js.length ≤ (prettyItems level js).length := by
  induction js with
  | nil => exact Nat.zero_le _
  | cons j js ih =>
    rw [prettyItems]
    simp only [List.length_append, List.length_cons]
    have : (Text.ofString ",").length = 1 := rfl
    omega

theorem prettyMember_append (level : Nat) (m : Text × Json) (r : Text) :
    prettyMember level m ++ r = 0x22 :: (m.1.pieces.flatMap (escapePiece documentEscapes) ++
      0x22 :: 0x3a :: 0x20 :: (prettyAt level m.2 ++ r)) := by
  rw [prettyMember, List.append_assoc, List.append_assoc, quote_append]
  rfl

/-- A member is read up to the delimiter after its value: a brace ends the object, and a comma goes
before more members. -/
theorem readMembers_succ (level fuel : Nat) {m : Text × Json} (hm : ReadBy value m.2)
    {t r r' : Text} (hr : Delimited r) (ht : skipSpace t = prettyMember level m ++ r) :
    (skipSpace r = 0x7d :: r' →
      readMembers value (fuel + 1) t = .ok ([(m.1.repaired, m.2.repaired)], r')) ∧
    ∀ {ms rest}, skipSpace r = 0x2c :: r' → readMembers value fuel r' = .ok (ms, rest) →
      readMembers value (fuel + 1) t = .ok ((m.1.repaired, m.2.repaired) :: ms, rest) := by
  have hcolon : ∀ x, skipSpace (0x3a :: x) = 0x3a :: x := skipSpace_cons rfl
  have hvalue : skipSpace (0x20 :: (prettyAt level m.2 ++ r)) = prettyAt level m.2 ++ r :=
    (hm.opens level).skipSpace_append r
  rw [readMembers, ht, prettyMember_append]
  simp only [readString_quote, bind, Except.bind, hcolon, hvalue, hm.reads level r hr]
  constructor
  · intro hclose
    simp only [hclose]
    rfl
  · intro ms rest hcomma hrest
    simp only [hcomma, hrest]
    rfl

/-- Members are read one by one up to the closing brace; each costs one unit of fuel. -/
theorem readMembers_pretty (level outer : Nat) (rest : Text) {m : Text × Json}
    {ms : List (Text × Json)} (h : ∀ x ∈ m :: ms, ReadBy value x.2) {fuel : Nat}
    (hfuel : ms.length < fuel) {t : Text}
    (ht : skipSpace t =
      prettyMember level m ++ (prettyMembers level ms ++ (newLine outer ++ 0x7d :: rest))) :
    readMembers value fuel t =
      .ok ((m :: ms).map fun x => (x.1.repaired, x.2.repaired), rest) := by
  have hend := delimited_newLine outer (0x7d :: rest)
  obtain ⟨fuel, rfl⟩ : ∃ k, fuel = k + 1 := ⟨fuel - 1, by omega⟩
  induction ms generalizing m fuel t with
  | nil =>
    rw [prettyMembers, List.nil_append] at ht
    exact (readMembers_succ level fuel (h m List.mem_cons_self) hend ht).1
      (by rw [skipSpace_newLine, skipSpace_cons rfl])
  | cons n ms ih =>
    obtain ⟨fuel, rfl⟩ : ∃ k, fuel = k + 1 := ⟨fuel - 1, by simp at hfuel; omega⟩
    have hnext : prettyMembers level (n :: ms) ++ (newLine outer ++ 0x7d :: rest) =
        0x2c :: (newLine level ++ (prettyMember level n ++
          (prettyMembers level ms ++ (newLine outer ++ 0x7d :: rest)))) := by
      rw [prettyMembers]
      simp only [List.append_assoc]
      rfl
    have hspace : skipSpace (newLine level ++ (prettyMember level n ++
        (prettyMembers level ms ++ (newLine outer ++ 0x7d :: rest)))) =
        prettyMember level n ++ (prettyMembers level ms ++ (newLine outer ++ 0x7d :: rest)) := by
      rw [skipSpace_newLine, prettyMember_append, skipSpace_cons rfl]
    have hrest := ih (fun x hx => h x (List.mem_cons_of_mem _ hx)) hspace fuel
      (by simpa using hfuel)
    have hdelimited := delimited_members level (n :: ms) hend
    exact (readMembers_succ level _ (h m List.mem_cons_self) hdelimited ht).2
      (by rw [hnext, skipSpace_cons rfl]) hrest

theorem length_le_prettyMembers (level : Nat) (ms : List (Text × Json)) :
    ms.length ≤ (prettyMembers level ms).length := by
  induction ms with
  | nil => exact Nat.zero_le _
  | cons m ms ih =>
    rw [prettyMembers]
    simp only [List.length_append, List.length_cons]
    have : (Text.ofString ",").length = 1 := rfl
    omega

end Lists

/-! ### Values -/

theorem array_append (level : Nat) (j : Json) (js : List Json) (t : Text) :
    prettyAt level (array (j :: js)) ++ t = 0x5b :: (newLine (level + 1) ++
      (prettyAt (level + 1) j ++
        (prettyItems (level + 1) js ++ (newLine level ++ 0x5d :: t)))) := by
  rw [prettyAt]
  simp only [List.append_assoc]
  rfl

theorem object_append (level : Nat) (m : Text × Json) (ms : List (Text × Json)) (t : Text) :
    prettyAt level (object (m :: ms)) ++ t = 0x7b :: (newLine (level + 1) ++
      (prettyMember (level + 1) m ++
        (prettyMembers (level + 1) ms ++ (newLine level ++ 0x7d :: t)))) := by
  rw [prettyAt]
  simp only [List.append_assoc]
  rfl

theorem Tidy.opens {d : Nat} {j : Json} (h : j.Tidy d) (level : Nat) :
    Opens (prettyAt level j) := by
  cases h with
  | null d => exact ⟨0x6e, _, by rw [prettyAt]; rfl, rfl, by decide⟩
  | bool d b =>
    cases b
    · exact ⟨0x66, _, by rw [prettyAt]; rfl, rfl, by decide⟩
    · exact ⟨0x74, _, by rw [prettyAt]; rfl, rfl, by decide⟩
  | int d i =>
    obtain ⟨b, r, hi, hb⟩ := exists_integer_eq_cons i
    refine ⟨b, r, by rw [Json.int, prettyAt, hi], ?_⟩
    rcases hb with hb | rfl
    · constructor
      · by_contra hspace
        simp only [isSpace, Bool.not_eq_false, Bool.or_eq_true, decide_eq_true_eq] at hspace
        rcases hspace with ((rfl | rfl) | rfl) | rfl <;> cases hb
      · rintro rfl
        cases hb
    · exact ⟨rfl, by decide⟩
  | string d t =>
    exact ⟨0x22, _, by rw [prettyAt, ← List.append_nil (quote _ _), quote_append], rfl, by decide⟩
  | @array d js h =>
    cases js with
    | nil => exact ⟨0x5b, _, by rw [prettyAt]; rfl, rfl, by decide⟩
    | cons j js =>
      exact ⟨0x5b, _, by rw [← List.append_nil (prettyAt _ _), array_append], rfl, by decide⟩
  | @object d ms h =>
    cases ms with
    | nil => exact ⟨0x7b, _, by rw [prettyAt]; rfl, rfl, by decide⟩
    | cons m ms =>
      exact ⟨0x7b, _, by rw [← List.append_nil (prettyAt _ _), object_append], rfl, by decide⟩

theorem readValue_bracket (d : Nat) {r r' : Text} (hr : skipSpace r = r')
    (hne : ∀ x, r' ≠ 0x5d :: x) :
    readValue (d + 1) (0x5b :: r) =
      readItems (readValue d) (r'.length + 1) r' >>= fun x => pure (array x.1, x.2) := by
  subst hr
  rw [readValue]
  split
  · rename_i r' heq
    exact (hne r' heq).elim
  · rfl

theorem readValue_brace (d : Nat) {r r' : Text} (hr : skipSpace r = r')
    (hne : ∀ x, r' ≠ 0x7d :: x) :
    readValue (d + 1) (0x7b :: r) =
      readMembers (readValue d) (r'.length + 1) r' >>= fun x => pure (object x.1, x.2) := by
  subst hr
  rw [readValue]
  split
  · rename_i r' heq
    exact (hne r' heq).elim
  · rfl

/-- An array is read if its items are, one level less deep. -/
theorem reads_array {d : Nat} {js : List Json} (h : ∀ j ∈ js, ReadBy (readValue d) j)
    (level : Nat) (t : Text) :
    readValue (d + 1) (prettyAt level (array js) ++ t) = .ok ((array js).repaired, t) := by
  cases js with
  | nil =>
    rw [prettyAt, repaired_array, readValue.eq_def]
    rfl
  | cons j js =>
    have hopens := (h j List.mem_cons_self).opens (level + 1)
    have hspace := hopens.skipSpace_append
      (prettyItems (level + 1) js ++ (newLine level ++ 0x5d :: t))
    rw [array_append, readValue_bracket d (by rw [skipSpace_newLine, hspace]) ?_,
      readItems_pretty (level + 1) level t h ?_ hspace, repaired_array]
    · rfl
    · -- each item takes at least one byte, so the fuel lasts
      have := length_le_prettyItems (level + 1) js
      simp only [List.length_append]
      omega
    · obtain ⟨b, r, hb, -, hne⟩ := hopens
      intro x hx
      rw [hb, List.cons_append] at hx
      exact hne (List.cons.inj hx).1

/-- An object is read if the values of its members are, one level less deep. -/
theorem reads_object {d : Nat} {ms : List (Text × Json)}
    (h : ∀ m ∈ ms, ReadBy (readValue d) m.2) (level : Nat) (t : Text) :
    readValue (d + 1) (prettyAt level (object ms) ++ t) = .ok ((object ms).repaired, t) := by
  cases ms with
  | nil =>
    rw [prettyAt, repaired_object, readValue.eq_def]
    rfl
  | cons m ms =>
    have hspace : ∀ r, skipSpace (prettyMember (level + 1) m ++ r) =
        prettyMember (level + 1) m ++ r := fun r => by
      rw [prettyMember_append, skipSpace_cons rfl]
    rw [object_append, readValue_brace d (by rw [skipSpace_newLine, hspace]) ?_,
      readMembers_pretty (level + 1) level t h ?_ (hspace _), repaired_object]
    · rfl
    · -- as for items, the fuel lasts
      have := length_le_prettyMembers (level + 1) ms
      simp only [List.length_append]
      omega
    · intro x hx
      rw [prettyMember_append] at hx
      cases (List.cons.inj hx).1

/-- **What is written for a value is read as that value**, if it is not deeper than the reader
goes. -/
theorem Tidy.readBy {d : Nat} {j : Json} (h : j.Tidy d) : ReadBy (readValue d) j := by
  refine ⟨h.opens, fun level t ht => ?_⟩
  induction h generalizing level t with
  | null d =>
    rw [prettyAt, repaired]
    exact readValue_scalar (by decide) (by decide) d _
  | bool d b =>
    cases b <;> rw [prettyAt, repaired] <;>
      exact readValue_scalar (by decide) (by decide) d _
  | int d i =>
    obtain ⟨b, r, hi, hb⟩ := exists_integer_eq_cons i
    have hscalar := readScalar_integer i ht
    rw [hi, List.cons_append] at hscalar
    rw [Json.int, prettyAt, repaired, hi, List.cons_append, readValue_scalar, hscalar, Json.int, hi]
    · rintro rfl
      rcases hb with hb | hb <;> cases hb
    · rintro rfl
      rcases hb with hb | hb <;> cases hb
  | string d s =>
    rw [prettyAt, repaired_string, ← readScalar_string, quote_append]
    exact readValue_scalar (by decide) (by decide) d _
  | array hjs ih => exact reads_array (fun x hx => ⟨(hjs x hx).opens, ih x hx⟩) level t
  | object hms ih => exact reads_object (fun x hx => ⟨(hms x hx).opens, ih x hx⟩) level t

/-- **A document is read as the value that was written**, its stray bytes repaired. -/
theorem parse_pretty {j : Json} (h : j.Tidy maxDepth) : parse j.pretty = .ok j.repaired := by
  have hread := h.readBy.reads 0 [0x20] ⟨0x20, [], rfl, .inr (.inl rfl)⟩
  rw [parse, pretty, (h.opens 0).skipSpace_append, hread]
  rfl

/-! ### Values that are read back as they are -/

/-- A tidy value without stray bytes. -/
structure Settled (d : Nat) (j : Json) : Prop where
  tidy : j.Tidy d
  repaired_eq : j.repaired = j

namespace Settled

variable {d : Nat}

theorem string {t : Text} (h : t.repaired = t) : Settled d (string t) :=
  ⟨.string d t, by rw [repaired_string, h]⟩

theorem array {js : List Json} (h : ∀ j ∈ js, Settled d j) : Settled (d + 1) (array js) :=
  ⟨.array fun j hj => (h j hj).tidy, repaired_array_eq_iff.2 fun j hj => (h j hj).repaired_eq⟩

theorem record {ms : List (Text × Option Json)}
    (h : ∀ m ∈ ms, m.1.repaired = m.1 ∧ ∀ j ∈ m.2, Settled d j) : Settled (d + 1) (record ms) := by
  refine ⟨.record fun m hm j hj => ((h m hm).2 j hj).tidy, repaired_object_eq_iff.2 fun m hm => ?_⟩
  obtain ⟨⟨k, o⟩, hko, hm⟩ := List.mem_filterMap.1 hm
  obtain ⟨j, hj, rfl⟩ := Option.map_eq_some_iff.1 hm
  exact ⟨(h _ hko).1, ((h _ hko).2 j hj).repaired_eq⟩

theorem of_mem_unlessEmpty {t : Text} (h : t.repaired = t) : ∀ j ∈ unlessEmpty t, Settled d j := by
  intro j hj
  rw [unlessEmpty] at hj
  split_ifs at hj
  · cases hj
  · exact Option.some.inj hj ▸ .string h

theorem of_mem_unlessZero (i : Int) : ∀ j ∈ unlessZero i, Settled d j := by
  intro j hj
  rw [unlessZero] at hj
  split_ifs at hj
  · cases hj
  · exact Option.some.inj hj ▸ ⟨.int d i, by rw [int, repaired]⟩

theorem of_mem_unlessNil {js : List Json} (h : ∀ j ∈ js, Settled d j) :
    ∀ j ∈ unlessNil js, Settled (d + 1) j := by
  intro j hj
  rw [unlessNil] at hj
  split_ifs at hj
  · cases hj
  · exact Option.some.inj hj ▸ .array h

theorem parse_pretty {j : Json} (h : Settled d j) (hd : d ≤ maxDepth) : parse j.pretty = .ok j := by
  rw [Json.parse_pretty (h.tidy.mono hd), h.repaired_eq]

end Settled

end ContractNet.Json
