import ContractNet.Proofs.Drawing.Markup

/-!
# The entities of an escaped text

Escaped texts can be read back.  Five entities stand for the five characters of markup, and reading
from left to right puts the character in the place of each.  An ampersand of an escaped text always
begins an entity, also where the text that was escaped had the bytes of an entity in it, and no
entity is the start of another; so the reader finds exactly the pieces that were written.

* `unescapeMarkup` reads the entities of a text, whatever else it holds;
* `entities_prefixFree`: no entity is the start of another;
* `unescapeMarkup_escapeByte_append`: what was written for a byte is read as that byte;
* `escapeMarkup_faithful`: escaping takes one pass, and nothing is lost by it.
-/

namespace ContractNet.Drawing

/-- The entities, each with the byte that it stands for. -/
def entities : List (Text × UInt8) :=
  [("&amp;", '&'), ("&lt;", '<'), ("&gt;", '>'), ("&quot;", 0x22), ("&apos;", 0x27)]

/-- A text with the bytes in the place of their entities, read from left to right.  An ampersand
that begins no entity stays. -/
def unescapeMarkup : Text → Text
  | [] => []
  | b :: r =>
    match entities.find? fun e => Text.startsWith (b :: r) e.1 with
    | some (e, c) => c :: unescapeMarkup (r.drop (e.length - 1))
    | none => b :: unescapeMarkup r
termination_by t => t.length
decreasing_by all_goals simp; try omega

/-! ### One entity -/

theorem entities_prefixFree : ∀ e ∈ entities, ∀ e' ∈ entities, e.1 <+: e'.1 → e = e' := by
  decide

theorem head?_of_mem_entities : ∀ e ∈ entities, e.1.head? = some '&'.toUInt8 := by decide

variable {e : Text} {b : UInt8} (r : Text)

/-- Of the entities, only `e` is found at the start of a text that `e` is the start of. -/
theorem find?_entities_append (he : (e, b) ∈ entities) :
    entities.find? (fun e' => Text.startsWith (e ++ r) e'.1) = some (e, b) := by
  have hstart : Text.startsWith (e ++ r) e = true :=
    List.isPrefixOf_iff_prefix.2 (List.prefix_append e r)
  have hsome : (entities.find? fun e' => Text.startsWith (e ++ r) e'.1).isSome :=
    List.find?_isSome.2 ⟨(e, b), he, hstart⟩
  obtain ⟨e', hfind⟩ := Option.isSome_iff_exists.1 hsome
  have he' : e' ∈ entities := List.mem_of_find?_eq_some hfind
  have hstart' := List.find?_some hfind
  have hprefix : e'.1 <+: e ++ r := List.isPrefixOf_iff_prefix.1 hstart'
  rw [hfind]
  rcases List.prefix_or_prefix_of_prefix hprefix (List.prefix_append e r) with h | h
  · rw [entities_prefixFree _ he' _ he h]
  · rw [entities_prefixFree _ he _ he' h]

theorem unescapeMarkup_entity_append (he : (e, b) ∈ entities) :
    unescapeMarkup (e ++ r) = b :: unescapeMarkup r := by
  have hfind := find?_entities_append r he
  obtain ⟨tail, rfl⟩ := List.head?_eq_some_iff.1 (head?_of_mem_entities _ he)
  rw [List.cons_append] at hfind ⊢
  rw [unescapeMarkup, hfind]
  simp

/-- Every entity begins with an ampersand. -/
theorem unescapeMarkup_cons_of_ne (hb : b ≠ '&') :
    unescapeMarkup (b :: r) = b :: unescapeMarkup r := by
  have hnone : (entities.find? fun e => Text.startsWith (b :: r) e.1) = none := by
    refine List.find?_eq_none.2 fun e he hstart => ?_
    obtain ⟨tail, htail⟩ := List.head?_eq_some_iff.1 (head?_of_mem_entities e he)
    have hprefix := List.isPrefixOf_iff_prefix.1 hstart
    rw [htail, List.cons_prefix_cons] at hprefix
    exact hb hprefix.1.symm
  rw [unescapeMarkup, hnone]

/-! ### A whole text -/

/-- **A byte is written as its entity,** or as it is, and then it is no ampersand. -/
theorem escapeByte_mem_entities (b : UInt8) :
    (escapeByte b, b) ∈ entities ∨ escapeByte b = [b] ∧ b ≠ '&' := by
  rw [escapeByte]
  split_ifs with hamp hlt hgt hquot hapos
  · exact .inl (hamp ▸ by decide)
  · exact .inl (hlt ▸ by decide)
  · exact .inl (hgt ▸ by decide)
  · exact .inl (hquot ▸ by decide)
  · exact .inl (hapos ▸ by decide)
  · exact .inr ⟨rfl, hamp⟩

theorem unescapeMarkup_escapeByte_append (b : UInt8) (r : Text) :
    unescapeMarkup (escapeByte b ++ r) = b :: unescapeMarkup r := by
  rcases escapeByte_mem_entities b with hentity | ⟨hself, hamp⟩
  · exact unescapeMarkup_entity_append r hentity
  · rw [hself]
    exact unescapeMarkup_cons_of_ne r hamp

theorem unescapeMarkup_escapeMarkup (t : Text) : unescapeMarkup (escapeMarkup t) = t := by
  rw [escapeMarkup_eq_flatMap]
  induction t with
  | nil => rw [List.flatMap_nil, unescapeMarkup]
  | cons b t ih => rw [List.flatMap_cons, unescapeMarkup_escapeByte_append, ih]

/-- **Escaping takes one pass, and nothing is lost by it.**  Replacing the five characters one after
the other in the whole text is the same as replacing each byte once by what stands for it, and
reading the entities of the result gives the text back.  So different texts are escaped
differently. -/
theorem escapeMarkup_faithful :
    (∀ t, escapeMarkup t = t.flatMap escapeByte) ∧
      (∀ t, unescapeMarkup (escapeMarkup t) = t) ∧ Function.Injective escapeMarkup :=
  ⟨escapeMarkup_eq_flatMap, unescapeMarkup_escapeMarkup,
    Function.LeftInverse.injective unescapeMarkup_escapeMarkup⟩

end ContractNet.Drawing
