import ContractNet.Proofs.Xml.Escape

/-!
# Reading tags

A word is a name without prefix, such as one made of letters (`Xml.isWord_ofString`).  Tags with
such names are read back:

* `Xml.readToken_startText`: a start tag with its attributes;
* `Xml.readToken_stopText`: an end tag;
* `Xml.StandsFor.readToken`: a text up to the next tag;
* `Xml.readToken_header`: the declaration of a document, which is passed over.
-/

namespace ContractNet.Xml

/-! ### Names -/

/-- A name without prefix. -/
def isWord (name : Text) : Bool :=
  name.all isNameByte && decide (':'.toUInt8 ∉ name) && isName name

theorem toNat_of_isAlpha {c : Char} (h : c.isAlpha = true) :
    (0x41 ≤ c.toNat ∧ c.toNat ≤ 0x5a) ∨ (0x61 ≤ c.toNat ∧ c.toNat ≤ 0x7a) := by
  rcases (Bool.or_eq_true _ _).mp h with h | h
  · have hupper : c.val ≥ 'A'.val ∧ c.val ≤ 'Z'.val := of_decide_eq_true h
    exact .inl hupper
  · obtain ⟨ha, hz⟩ := (Bool.and_eq_true _ _).mp h
    have hlower : c.val ≥ 'a'.val ∧ c.val ≤ 'z'.val := ⟨of_decide_eq_true ha, of_decide_eq_true hz⟩
    exact .inr hlower

theorem isNameStart_of_isAlpha {c : Char} (h : c.isAlpha = true) : isNameStart c = true := by
  have hletters : ∃ r ∈ nameStartRanges, r.1 ≤ c.toNat ∧ c.toNat ≤ r.2 := by
    rcases toNat_of_isAlpha h with h | h
    · exact ⟨(0x41, 0x5a), ⟨.tail _ (.head _)⟩, h⟩
    · exact ⟨(0x61, 0x7a), ⟨.tail _ (.tail _ (.tail _ (.head _)))⟩, h⟩
  obtain ⟨r, hr, hc⟩ := hletters
  rw [isNameStart, inRanges, Array.any_eq_true']
  exact ⟨r, hr, by simpa using hc⟩

/-- The byte of a letter can belong to a name, and is no colon. -/
theorem isNameByte_of_isAlpha {c : Char} (h : c.isAlpha = true) {b : UInt8}
    (hb : b ∈ Text.ofChar c) : isNameByte b = true ∧ b ≠ ':'.toUInt8 := by
  have hc := toNat_of_isAlpha h
  have hbyte : b.toNat = c.toNat := by
    rcases Text.toNat_of_mem_ofChar hb with ⟨-, he⟩ | ⟨hhigh, -⟩
    · exact he
    · omega
  refine ⟨?_, fun he => ?_⟩
  · have hA : 'A'.toUInt8.toNat = 0x41 := rfl
    have hZ : 'Z'.toUInt8.toNat = 0x5a := rfl
    have ha : 'a'.toUInt8.toNat = 0x61 := rfl
    have hz : 'z'.toUInt8.toNat = 0x7a := rfl
    simp only [isNameByte, Bool.or_eq_true, Bool.and_eq_true, decide_eq_true_eq,
      UInt8.le_iff_toNat_le, hA, hZ, ha, hz, hbyte]
    tauto
  · have : b.toNat = 0x3a := congrArg UInt8.toNat he
    omega

/-- A word can be made of letters. -/
theorem isWord_ofString {s : String} (h : (!s.toList.isEmpty && s.toList.all Char.isAlpha) = true) :
    isWord s = true := by
  change isWord (Text.ofChars s.toList) = true
  simp only [Bool.and_eq_true, Bool.not_eq_true', List.all_eq_true] at h
  obtain ⟨hne, halpha⟩ := h
  generalize s.toList = cs at hne halpha
  have hbytes : ∀ b ∈ Text.ofChars cs, isNameByte b = true ∧ b ≠ ':'.toUInt8 := by
    intro b hb
    obtain ⟨c, hc, hb⟩ := List.mem_flatMap.1 hb
    exact isNameByte_of_isAlpha (halpha c hc) hb
  have hname : isName (Text.ofChars cs) = true := by
    rw [isName, Text.isValid_ofChars, Text.chars_ofChars, Bool.true_and]
    cases cs with
    | nil => cases hne
    | cons c cs =>
      have hall : cs.all isNameChar = true := List.all_eq_true.2 fun d hd => by
        rw [isNameChar, isNameStart_of_isAlpha (halpha d (List.mem_cons_of_mem _ hd)), Bool.true_or]
      simp only [isNameStart_of_isAlpha (halpha c List.mem_cons_self), hall, Bool.and_self]
  simp only [isWord, Bool.and_eq_true, List.all_eq_true, decide_eq_true_eq]
  exact ⟨⟨fun b hb => (hbytes b hb).1, fun hb => (hbytes _ hb).2 rfl⟩, hname⟩

theorem splitAt_of_notMem {sep : UInt8} {t : Text} (h : sep ∉ t) : Text.splitAt sep t = [t] := by
  induction t with
  | nil => rfl
  | cons b t ih =>
    have hb : b ≠ sep := fun he => h (he ▸ List.mem_cons_self)
    rw [Text.splitAt, if_neg hb, ih fun ht => h (List.mem_cons_of_mem _ ht)]

section Word

variable {name : Text}

theorem isNameByte_of_isWord (h : isWord name = true) : ∀ b ∈ name, isNameByte b = true := by
  simp only [isWord, Bool.and_eq_true, List.all_eq_true] at h
  exact h.1.1

theorem exists_cons_of_isWord (h : isWord name = true) :
    ∃ b r, name = b :: r ∧ isNameByte b = true := by
  cases name with
  | nil =>
    simp only [isWord, isName, Text.chars_eq_nil_iff.2 rfl, Bool.and_false] at h
    cases h
  | cons b r => exact ⟨b, r, rfl, isNameByte_of_isWord h b List.mem_cons_self⟩

theorem readPlainName_append (h : isWord name = true) {b : UInt8} (hb : isNameByte b = false)
    (missing : Fault) (rest : Text) :
    readPlainName missing (name ++ b :: rest) = .ok (name, b :: rest) := by
  obtain ⟨htake, hdrop⟩ := span_append_cons (isNameByte_of_isWord h) hb rest
  obtain ⟨a, r, rfl, -⟩ := exists_cons_of_isWord h
  simp only [isWord, Bool.and_eq_true] at h
  simp only [readPlainName, htake, hdrop, h.2]
  rfl

theorem readName_append (h : isWord name = true) {b : UInt8} (hb : isNameByte b = false)
    (missing : Fault) (rest : Text) :
    readName missing (name ++ b :: rest) = .ok (⟨[], name⟩, b :: rest) := by
  have hcolon : ':'.toUInt8 ∉ name := by
    simp only [isWord, Bool.and_eq_true, decide_eq_true_eq] at h
    exact h.1.2
  have hof : Name.ofText? name = some ⟨[], name⟩ := by
    simp only [Name.ofText?, splitAt_of_notMem hcolon]
  rw [readName, readPlainName_append h hb, ok_bind]
  simp only [hof]
  rfl

theorem ne_of_isNameByte {a b : UInt8} (hb : isNameByte b = true) (ha : isNameByte a = false) :
    b ≠ a := by
  rintro rfl
  rw [hb] at ha
  cases ha

theorem skipSpace_append (h : isWord name = true) (t : Text) :
    skipSpace (name ++ t) = name ++ t := by
  obtain ⟨b, r, rfl, hb⟩ := exists_cons_of_isWord h
  refine List.dropWhile_cons_of_neg fun hspace => ?_
  simp only [isSpace, Bool.or_eq_true, decide_eq_true_eq] at hspace
  rcases hspace with ((h | h) | h) | h <;> exact ne_of_isNameByte hb (by decide) h

end Word

/-! ### Tags -/

/-- An attribute as it is read back. -/
def shownAttribute (a : Text × Text) : Text × Text := (a.1, representable a.2)

theorem renderAttribute_append (a : Text × Text) (t : Text) :
    renderAttribute a ++ t = 0x20 :: (a.1 ++ 0x3d :: 0x22 :: (escape a.2 ++ 0x22 :: t)) := by
  simp only [renderAttribute, List.append_assoc]
  rfl

theorem readAttribute_append {name : Text} (h : isWord name = true) (value t : Text) :
    readAttribute (name ++ 0x3d :: 0x22 :: (escape value ++ 0x22 :: t)) =
      .ok ((name, representable value), t) := by
  have hread := (standsFor_escape value).readQuoted t
  have hspace : ∀ b r, isSpace b = false → skipSpace (b :: r) = b :: r := fun b r hb =>
    List.dropWhile_cons_of_neg (by simp [hb])
  rw [readAttribute, readName_append h (by decide), ok_bind]
  simp only [hspace 0x3d _ (by decide), hspace 0x22 _ (by decide), hread]
  rfl

theorem readAttributes_succ {t r : Text} {b : UInt8} (h : skipSpace t = b :: r)
    (hb : isNameByte b = true) (fuel : Nat) :
    readAttributes (fuel + 1) t = readAttribute (b :: r) >>= fun x =>
      readAttributes fuel x.2 >>= fun y => pure ((x.1 :: y.1.1, y.1.2), y.2) := by
  have hgt : b ≠ 0x3e := ne_of_isNameByte hb (by decide)
  have hslash : b ≠ 0x2f := ne_of_isNameByte hb (by decide)
  rw [readAttributes, h]
  -- neither the end of the tag nor a slash before it
  split
  · rename_i he
    cases he
  · rename_i he
    exact absurd (List.cons.inj he).1 hgt
  · rename_i he
    exact absurd (List.cons.inj he).1 hslash
  · rename_i he
    exact absurd (List.cons.inj he).1 hslash
  · rename_i he
    exact absurd (List.cons.inj he).1 hslash
  · rfl

/-- The attributes of a start tag and its end. -/
theorem readAttributes_append {as : List (Text × Text)} (h : ∀ a ∈ as, isWord a.1 = true)
    {fuel : Nat} (hfuel : as.length < fuel) (t : Text) :
    readAttributes fuel (as.flatMap renderAttribute ++ 0x3e :: t) =
      .ok ((as.map shownAttribute, false), t) := by
  induction as generalizing fuel with
  | nil =>
    obtain ⟨k, rfl⟩ : ∃ k, fuel = k + 1 := ⟨fuel - 1, by simp at hfuel; omega⟩
    rfl
  | cons a as ih =>
    obtain ⟨k, rfl⟩ : ∃ k, fuel = k + 1 := ⟨fuel - 1, by simp at hfuel; omega⟩
    have hword := h a List.mem_cons_self
    obtain ⟨b, r, hname, hb⟩ := exists_cons_of_isWord hword
    have hskip : ∀ r' : Text, skipSpace (0x20 :: (a.1 ++ r')) = b :: (r ++ r') := fun r' =>
      calc skipSpace (0x20 :: (a.1 ++ r'))
        _ = skipSpace (a.1 ++ r') := List.dropWhile_cons_of_pos rfl
        _ = a.1 ++ r' := skipSpace_append hword r'
        _ = b :: (r ++ r') := by rw [hname, List.cons_append]
    rw [List.flatMap_cons, List.append_assoc, renderAttribute_append,
      readAttributes_succ (hskip _) hb, ← List.cons_append, ← hname, readAttribute_append hword,
      ok_bind, ih (fun a ha => h a (List.mem_cons_of_mem _ ha))
        (by rw [List.length_cons] at hfuel; omega)]
    rfl

theorem length_le_attributes (as : List (Text × Text)) :
    as.length ≤ (as.flatMap renderAttribute).length := by
  induction as with
  | nil => exact Nat.le_refl 0
  | cons a as ih =>
    rw [List.flatMap_cons, renderAttribute_append]
    simp only [List.length_cons, List.length_append]
    omega

theorem exists_cons_of_attributes (as : List (Text × Text)) (t : Text) :
    ∃ b r, as.flatMap renderAttribute ++ 0x3e :: t = b :: r ∧ isNameByte b = false := by
  cases as with
  | nil => exact ⟨0x3e, t, rfl, by decide⟩
  | cons a as =>
    rw [List.flatMap_cons, List.append_assoc, renderAttribute_append]
    exact ⟨_, _, rfl, by decide⟩

/-- The text of a start tag. -/
def startText (name : Text) (as : List (Text × Text)) (t : Text) : Text :=
  0x3c :: (name ++ (as.flatMap renderAttribute ++ 0x3e :: t))

/-- The text of an end tag. -/
def stopText (name t : Text) : Text := 0x3c :: 0x2f :: (name ++ 0x3e :: t)

theorem readToken_startText {name : Text} {as : List (Text × Text)} (hname : isWord name = true)
    (has : ∀ a ∈ as, isWord a.1 = true) (t : Text) :
    readToken (startText name as t) =
      .ok (.start ⟨⟨[], name⟩, as.map shownAttribute, false⟩, t) := by
  have hstart : readStart (name ++ (as.flatMap renderAttribute ++ 0x3e :: t)) =
      .ok (.start ⟨⟨[], name⟩, as.map shownAttribute, false⟩, t) := by
    obtain ⟨b, r, he, hb⟩ := exists_cons_of_attributes as t
    have hlen : as.length < (b :: r).length + 1 := by
      have := length_le_attributes as
      rw [← he, List.length_append]
      omega
    rw [readStart, he, readName_append hname hb, ok_bind]
    simp only [← he] at hlen ⊢
    rw [readAttributes_append has hlen, ok_bind]
    rfl
  -- a name starts neither an end tag nor what is passed over
  obtain ⟨b, r, rfl, hb⟩ := exists_cons_of_isWord hname
  rw [startText, List.cons_append, readToken]
  · exact hstart
  · intro r he
    exact ne_of_isNameByte hb (by decide) (List.cons.inj he).1
  · intro r he
    exact ne_of_isNameByte hb (by decide) (List.cons.inj he).1
  · intro r he
    exact ne_of_isNameByte hb (by decide) (List.cons.inj he).1

theorem readToken_stopText {name : Text} (hname : isWord name = true) (t : Text) :
    readToken (stopText name t) = .ok (.stop ⟨[], name⟩, t) := by
  rw [stopText, readToken, readStop, readName_append hname (by decide), ok_bind]
  rfl

theorem StandsFor.readToken {raw s : Text} (h : StandsFor raw s) (hne : raw ≠ []) (t : Text) :
    Xml.readToken (raw ++ 0x3c :: t) = .ok (.text s, 0x3c :: t) := by
  obtain ⟨b, r, rfl⟩ := List.exists_cons_of_ne_nil hne
  have hb : b ≠ 0x3c := (h.unmarked b List.mem_cons_self).2.1
  have hread := h.readText t
  rw [List.cons_append] at hread ⊢
  rw [Xml.readToken]
  · rw [hread]
    rfl
  · intro r he
    exact hb (List.cons.inj he).1
  · intro r he
    exact hb (List.cons.inj he).1
  · intro r he
    exact hb (List.cons.inj he).1
  · intro r he
    exact hb (List.cons.inj he).1

/-! ### The declaration -/

theorem cut?_append {b : UInt8} {front : Text} (h : b ∉ front) (sep rest : Text) :
    Text.cut? (b :: sep) (front ++ b :: (sep ++ rest)) = some (front, rest) := by
  induction front with
  | nil =>
    have hafter : Text.after? (b :: sep) (b :: (sep ++ rest)) = some rest :=
      List.isPrefixOf?_eq_some_iff_append_eq.2 rfl
    rw [List.nil_append, Text.cut?, hafter]
  | cons a front ih =>
    have ha : b ≠ a := fun he => h (he ▸ List.mem_cons_self)
    have hafter : Text.after? (b :: sep) (a :: (front ++ b :: (sep ++ rest))) = none := by
      simp [Text.after?, List.isPrefixOf?, ha]
    rw [List.cons_append, Text.cut?, hafter, ih fun hb => h (List.mem_cons_of_mem _ hb)]
    rfl

/-- The declaration is passed over. -/
theorem readToken_header (t : Text) : readToken (header ++ t) = .ok (.skipped, 0x0a :: t) := by
  let data : Text := "version=\"1.0\" encoding=\"UTF-8\""
  have hheader : header ++ t =
      0x3c :: 0x3f :: (("xml" : Text) ++ 0x20 :: (data ++ 0x3f :: ([0x3e] ++ 0x0a :: t))) := rfl
  have hcut : Text.cut? [0x3f, 0x3e] (data ++ 0x3f :: ([0x3e] ++ 0x0a :: t)) =
      some (data, 0x0a :: t) := cut?_append (by decide) [0x3e] (0x0a :: t)
  have hskip : skipSpace (0x20 :: (data ++ 0x3f :: ([0x3e] ++ 0x0a :: t))) =
      data ++ 0x3f :: ([0x3e] ++ 0x0a :: t) := rfl
  have hversion : declared "version" data.length data = "1.0" := by decide
  have hencoding : declared "encoding" data.length data = "UTF-8" := by decide
  have htarget : isWord "xml" = true := isWord_ofString (by decide)
  rw [hheader, readToken, readInstruction, readPlainName_append htarget (by decide), ok_bind]
  simp only [hskip]
  rw [show Text.cut? "?>" (data ++ 0x3f :: ([0x3e] ++ 0x0a :: t)) = _ from hcut]
  simp only [need, ok_bind, hversion, hencoding]
  rfl

end ContractNet.Xml
