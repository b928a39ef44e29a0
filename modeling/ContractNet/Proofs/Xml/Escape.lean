import ContractNet.Proofs.Text.Utf8
import ContractNet.Xml.Reader
import Mathlib.Tactic.SplitIfs

/-!
# Escaped texts

Each character is written either as it is or as a reference to it (`Xml.escapeChar_cases`); what
follows about escaped texts rests on that.

* `Xml.StandsFor raw s` says that `raw` can stand in a tag or between tags and is read as `s`;
* `Xml.standsFor_escape`: an escaped text stands for the text, with U+FFFD for what no document may
  hold;
* `Xml.escape_representable`: what is read is written as before.
-/

namespace ContractNet.Xml

/-- The character that a document shows for `c`. -/
def shown (c : Char) : Char := if isAllowed c then c else '\uFFFD'

/-- The text is UTF-8, and documents may hold each of its characters. -/
structure IsRepresentable (t : Text) : Prop where
  valid : t.isValid = true
  allowed : ∀ c ∈ t.chars, isAllowed c = true

/-- A byte that has no meaning of its own between tags or in quotes. -/
def isPlain (b : UInt8) : Bool := b ∉ ([0x0d, 0x22, 0x26, 0x3c, 0x3e] : Text)

theorem ne_of_isPlain {b : UInt8} (h : isPlain b = true) :
    b ≠ 0x0d ∧ b ≠ 0x22 ∧ b ≠ 0x26 ∧ b ≠ 0x3c ∧ b ≠ 0x3e := by
  simpa [isPlain] using h

theorem ok_bind {ε α β : Type} (a : α) (f : α → Except ε β) : (Except.ok a >>= f) = f a := rfl

/-! ### Representable texts -/

theorem isAllowed_shown (c : Char) : isAllowed (shown c) = true := by
  unfold shown
  split
  · assumption
  · decide

theorem shown_eq_self {c : Char} (h : isAllowed c = true) : shown c = c := if_pos h

theorem representable_eq (t : Text) : representable t = Text.ofChars (t.chars.map shown) := rfl

@[simp] theorem chars_representable (t : Text) : (representable t).chars = t.chars.map shown := by
  rw [representable_eq, Text.chars_ofChars]

theorem isRepresentable_representable (t : Text) : IsRepresentable (representable t) where
  valid := Text.isValid_ofChars _
  allowed := by
    simp only [chars_representable, List.mem_map]
    rintro _ ⟨c, -, rfl⟩
    exact isAllowed_shown c

/-- Writing and reading leaves representable texts, and no others, as they are. -/
theorem representable_eq_self_iff {t : Text} : representable t = t ↔ IsRepresentable t := by
  constructor
  · intro h
    exact h ▸ isRepresentable_representable t
  · rintro ⟨hvalid, hallowed⟩
    have hmap : t.chars.map shown = t.chars := by
      conv_rhs => rw [← List.map_id t.chars]
      exact List.map_congr_left fun c hc => shown_eq_self (hallowed c hc)
    rw [representable_eq, hmap, Text.ofChars_chars hvalid]

@[simp] theorem representable_eq_nil_iff {t : Text} : representable t = [] ↔ t = [] := by
  rw [← Text.chars_eq_nil_iff, chars_representable, List.map_eq_nil_iff, Text.chars_eq_nil_iff]

/-! ### Characters -/

/-- **A character is written as it is, or as a reference to it.** -/
theorem escapeChar_cases (c : Char) :
    (escapeChar c = Text.ofChar (shown c) ∧ (escapeChar c).all isPlain = true) ∨
      ∃ r : Text, escapeChar c = 0x26 :: r ∧ r.all isPlain = true ∧ isAllowed c = true ∧
        ∀ after t, readReference after (r ++ t) = .ok (c, t) := by
  by_cases h₁ : c = '"'
  · subst h₁
    exact .inr ⟨"#34;", rfl, by decide, by decide, fun _ _ => rfl⟩
  by_cases h₂ : c = '\x27'
  · subst h₂
    exact .inr ⟨"#39;", rfl, by decide, by decide, fun _ _ => rfl⟩
  by_cases h₃ : c = '&'
  · subst h₃
    exact .inr ⟨"amp;", rfl, by decide, by decide, fun _ _ => rfl⟩
  by_cases h₄ : c = '<'
  · subst h₄
    exact .inr ⟨"lt;", rfl, by decide, by decide, fun _ _ => rfl⟩
  by_cases h₅ : c = '>'
  · subst h₅
    exact .inr ⟨"gt;", rfl, by decide, by decide, fun _ _ => rfl⟩
  by_cases h₆ : c = '\t'
  · subst h₆
    exact .inr ⟨"#x9;", rfl, by decide, by decide, fun _ _ => rfl⟩
  by_cases h₇ : c = '\n'
  · subst h₇
    exact .inr ⟨"#xA;", rfl, by decide, by decide, fun _ _ => rfl⟩
  by_cases h₈ : c = '\r'
  · subst h₈
    exact .inr ⟨"#xD;", rfl, by decide, by decide, fun _ _ => rfl⟩
  have hesc : escapeChar c = Text.ofChar (shown c) := by
    have h27 : c.toNat ≠ 0x27 := fun h => h₂ (Char.toNat_inj.1 h)
    rw [escapeChar, if_neg h₁, if_neg h27, if_neg h₃, if_neg h₄, if_neg h₅, if_neg h₆, if_neg h₇,
      if_neg h₈, shown, apply_ite Text.ofChar]
  refine .inl ⟨hesc, ?_⟩
  rw [hesc]
  by_cases hallowed : isAllowed c = true
  · -- an ASCII byte is the character itself, which is none of those above
    rw [shown_eq_self hallowed]
    refine List.all_eq_true.2 fun b hb => ?_
    have hne : ∀ d : Char, c ≠ d → d.toNat < 0x80 → b.toNat ≠ d.toNat := by
      intro d hd hlow
      rcases Text.toNat_of_mem_ofChar hb with ⟨-, he⟩ | ⟨-, hhigh⟩
      · exact fun h => hd (Char.toNat_inj.1 (he ▸ h))
      · omega
    have hbyte : ∀ n : UInt8, b = n → b.toNat = n.toNat := fun n h => congrArg _ h
    simp only [isPlain, List.mem_cons, List.not_mem_nil, or_false, decide_eq_true_eq, not_or]
    exact ⟨fun h => hne _ h₈ (by decide) (hbyte _ h), fun h => hne _ h₁ (by decide) (hbyte _ h),
      fun h => hne _ h₃ (by decide) (hbyte _ h), fun h => hne _ h₄ (by decide) (hbyte _ h),
      fun h => hne _ h₅ (by decide) (hbyte _ h)⟩
  · rw [show shown c = '\uFFFD' from if_neg hallowed]
    decide

theorem escapeChar_ne_nil (c : Char) : escapeChar c ≠ [] := by
  rcases escapeChar_cases c with ⟨h, -⟩ | ⟨r, h, -⟩
  · exact h ▸ Text.ofChar_ne_nil _
  · exact h ▸ List.cons_ne_nil _ _

theorem escapeChar_shown (c : Char) : escapeChar (shown c) = escapeChar c := by
  by_cases h : isAllowed c = true
  · rw [shown_eq_self h]
  · have hshown : shown c = '\uFFFD' := if_neg h
    rcases escapeChar_cases c with ⟨he, -⟩ | ⟨_, -, -, ha, -⟩
    · rw [he, hshown]
      decide
    · exact absurd ha h

/-! ### Texts -/

theorem isPlain_or_eq_of_mem_escape {t : Text} {b : UInt8} (h : b ∈ escape t) :
    b = 0x26 ∨ isPlain b = true := by
  obtain ⟨c, -, hb⟩ := List.mem_flatMap.1 h
  rcases escapeChar_cases c with ⟨-, hplain⟩ | ⟨r, he, hplain, -⟩
  · exact .inr (List.all_eq_true.1 hplain b hb)
  · rcases List.mem_cons.1 (he ▸ hb) with rfl | hb
    · exact .inl rfl
    · exact .inr (List.all_eq_true.1 hplain b hb)

/-- What is read is written as before. -/
theorem escape_representable (t : Text) : escape (representable t) = escape t := by
  rw [escape, chars_representable, List.flatMap_map, escape]
  exact List.flatMap_congr fun c _ => escapeChar_shown c

theorem escape_eq_nil_iff {t : Text} : escape t = [] ↔ t = [] := by
  rw [escape, List.flatMap_eq_nil_iff, ← Text.chars_eq_nil_iff, List.eq_nil_iff_forall_not_mem]
  exact forall_congr' fun c => imp_congr_right fun _ => iff_of_false (escapeChar_ne_nil c) id

/-- Plain bytes are read as they are. -/
theorem expand_plain_append {bs : Text} (hbs : bs.all isPlain = true) (after : Text) (fuel : Nat)
    (t : Text) :
    expand true after (fuel + bs.length) (bs ++ t) = (bs ++ ·) <$> expand true after fuel t := by
  induction bs with
  | nil => simp
  | cons b bs ih =>
    rw [List.all_cons, Bool.and_eq_true] at hbs
    obtain ⟨hcr, -, hamp, -, -⟩ := ne_of_isPlain hbs.1
    have hstep : expand true after (fuel + bs.length + 1) (b :: (bs ++ t)) =
        (b :: ·) <$> expand true after (fuel + bs.length) (bs ++ t) := by
      rw [expand]
      · simp [hamp, show '&'.toUInt8 = 0x26 from rfl]
      · intro r h _
        exact hcr h
      · exact hcr
    rw [List.length_cons, ← Nat.add_assoc, List.cons_append, hstep,
      ih hbs.2, ← comp_map]
    rfl

/-- A written character is read as what documents show for it; that takes no more steps than it
has bytes. -/
theorem expand_escapeChar (c : Char) (after : Text) : ∃ k ≤ (escapeChar c).length, ∀ fuel t,
    expand true after (fuel + k) (escapeChar c ++ t) =
      (Text.ofChar (shown c) ++ ·) <$> expand true after fuel t := by
  rcases escapeChar_cases c with ⟨he, hplain⟩ | ⟨r, he, -, hallowed, hread⟩
  · refine ⟨(escapeChar c).length, Nat.le_refl _, fun fuel t => ?_⟩
    rw [expand_plain_append hplain, he]
  · -- a reference takes one step, however long it is
    refine ⟨1, by rw [he]; simp, fun fuel t => ?_⟩
    have hstep : expand true after (fuel + 1) (0x26 :: (r ++ t)) =
        readReference after (r ++ t) >>= fun x => expand true after fuel x.2 >>= fun s =>
          pure (Text.ofChar x.1 ++ s) := by
      rw [expand]
      · rfl
      · intro _ h _
        exact absurd h (by decide)
      · decide
    rw [he, List.cons_append, hstep, hread, shown_eq_self hallowed]
    change (expand true after fuel t >>= fun s => pure (Text.ofChar c ++ s)) = _
    cases expand true after fuel t <;> rfl

theorem expand_escape (t after : Text) {fuel : Nat} (h : (escape t).length ≤ fuel) :
    expand true after fuel (escape t) = .ok (representable t) := by
  rw [escape] at h ⊢
  rw [representable_eq]
  generalize t.chars = cs at h ⊢
  induction cs generalizing fuel with
  | nil => cases fuel <;> rfl
  | cons c cs ih =>
    obtain ⟨k, hk, hstep⟩ := expand_escapeChar c after
    rw [List.flatMap_cons, List.length_append] at h
    have hfuel : fuel = fuel - k + k := by omega
    rw [List.flatMap_cons, hfuel, hstep, ih (by omega), List.map_cons, Text.ofChars_cons]
    rfl

/-! ### What stands for a text -/

/-- Between tags or in quotes, `raw` is read as `s`. -/
structure StandsFor (raw s : Text) : Prop where
  unmarked : ∀ b ∈ raw, b ≠ 0x22 ∧ b ≠ 0x3c ∧ b ≠ 0x3e
  expanded : ∀ after, expand true after raw.length raw = .ok s
  representable : IsRepresentable s

theorem standsFor_escape (t : Text) : StandsFor (escape t) (representable t) where
  unmarked b hb := by
    rcases isPlain_or_eq_of_mem_escape hb with rfl | hplain
    · decide
    · obtain ⟨-, hquot, -, hlt, hgt⟩ := ne_of_isPlain hplain
      exact ⟨hquot, hlt, hgt⟩
  expanded after := expand_escape t after (Nat.le_refl _)
  representable := isRepresentable_representable t

theorem newLine_eq_ofChars (level : Nat) :
    newLine level = Text.ofChars ('\n' :: List.replicate (2 * level) ' ') := by
  have hspaces : ∀ n, Text.ofChars (List.replicate n ' ') = List.replicate n ' '.toUInt8 := by
    intro n
    induction n with
    | zero => rfl
    | succ n ih => rw [List.replicate_succ, List.replicate_succ, Text.ofChars_cons, ih]; rfl
  rw [newLine, Text.ofChars_cons, hspaces]
  rfl

/-- The end of a line and the spaces of the next one stand for themselves. -/
theorem standsFor_newLine (level : Nat) : StandsFor (newLine level) (newLine level) := by
  have hbytes : ∀ b ∈ newLine level, b = 0x0a ∨ b = 0x20 := by
    intro b hb
    rcases List.mem_append.1 hb with hb | hb
    · exact .inl (List.mem_singleton.1 hb)
    · exact .inr (List.mem_replicate.1 hb).2
  refine ⟨fun b hb => ?_, fun after => ?_, ?_, ?_⟩
  · rcases hbytes b hb with rfl | rfl <;> decide
  · have hplain : (newLine level).all isPlain = true := by
      refine List.all_eq_true.2 fun b hb => ?_
      rcases hbytes b hb with rfl | rfl <;> decide
    have := expand_plain_append hplain after 0 []
    rw [Nat.zero_add, List.append_nil] at this
    rw [this, expand]
    exact congrArg _ (List.append_nil _)
  · rw [newLine_eq_ofChars]
    exact Text.isValid_ofChars _
  · rw [newLine_eq_ofChars, Text.chars_ofChars]
    intro c hc
    rcases List.mem_cons.1 hc with rfl | hc
    · decide
    · rw [(List.mem_replicate.1 hc).2]
      decide

theorem cut?_eq_none {sep t : Text} {b : UInt8} (hsep : b ∈ sep) (ht : b ∉ t) :
    Text.cut? sep t = none := by
  induction t with
  | nil =>
    have : sep ≠ [] := List.ne_nil_of_mem hsep
    simp [Text.cut?, this]
  | cons a t ih =>
    have hafter : Text.after? sep (a :: t) = none := by
      cases h : Text.after? sep (a :: t) with
      | none => rfl
      | some rest =>
        have := List.append_eq_of_isPrefixOf?_eq_some h
        exact absurd (this ▸ List.mem_append_left rest hsep) ht
    rw [Text.cut?, hafter]
    simp [ih fun h => ht (List.mem_cons_of_mem _ h)]

theorem checkPieces_eq_ok {t : Text} (h : IsRepresentable t) (after : Text) :
    checkPieces after t = .ok t := by
  have hnone : t.pieces.findSome? pieceFault? = none := by
    refine List.findSome?_eq_none_iff.2 fun p hp => ?_
    have hvalid := List.all_eq_true.1 h.valid p hp
    cases p with
    | stray b => cases hvalid
    | char c =>
      have : c ∈ t.chars := List.mem_map.2 ⟨_, hp, rfl⟩
      rw [pieceFault?, if_pos (h.allowed c this)]
  rw [checkPieces, hnone]

/-- A list is cut where the first element fails a test. -/
theorem span_append_cons {α : Type} {p : α → Bool} {l : List α} (hl : ∀ a ∈ l, p a = true) {a : α}
    (ha : p a = false) (r : List α) :
    (l ++ a :: r).takeWhile p = l ∧ (l ++ a :: r).dropWhile p = a :: r := by
  rw [List.takeWhile_append_of_pos hl, List.dropWhile_append_of_pos hl,
    List.takeWhile_cons_of_neg (by simp [ha]), List.dropWhile_cons_of_neg (by simp [ha]),
    List.append_nil]
  exact ⟨rfl, rfl⟩

namespace StandsFor

variable {raw s : Text}

/-- Between tags, a text is read up to the next tag. -/
theorem readText (h : StandsFor raw s) (rest : Text) :
    Xml.readText (raw ++ 0x3c :: rest) = .ok (s, 0x3c :: rest) := by
  obtain ⟨htake, hdrop⟩ := span_append_cons (p := fun b => b ≠ '<'.toUInt8)
    (fun b hb => decide_eq_true (h.unmarked b hb).2.1) (a := 0x3c) (by decide) rest
  have hcut : Text.cut? "]]>" raw = none :=
    cut?_eq_none (b := 0x3e) (by decide) fun hb => (h.unmarked _ hb).2.2 rfl
  rw [Xml.readText, htake, hdrop, expandWithout, hcut]
  simp only [h.expanded, ok_bind, checkPieces_eq_ok h.representable]
  rfl

/-- In quotes, a text is read up to the closing quote. -/
theorem readQuoted (h : StandsFor raw s) (rest : Text) :
    Xml.readQuoted 0x22 (raw ++ 0x22 :: rest) = .ok (s, rest) := by
  obtain ⟨htake, hdrop⟩ := span_append_cons (p := fun b => b ≠ (0x22 : UInt8))
    (fun b hb => decide_eq_true (h.unmarked b hb).1) (a := 0x22) (by decide) rest
  have hcut : Text.cut? "<" raw = none :=
    cut?_eq_none (b := 0x3c) (by decide) fun hb => (h.unmarked _ hb).2.1 rfl
  rw [Xml.readQuoted, htake, hdrop, expandWithout, hcut]
  simp only [h.expanded, ok_bind, checkPieces_eq_ok h.representable]
  rfl

end StandsFor

end ContractNet.Xml
