import ContractNet.Proofs.Xml.Tag

/-!
# Reading what was written

A tidy node is an element that holds either one text or elements only, with plain names.  What is
read from its written form is the node itself, with U+FFFD for what no document may hold
(`Node.represented`) and with the white space of the lines between elements (`Node.spread`).

* `Xml.Reads name t ns rest` says that up to the end tag of `name`, at the front of `t`, stand the
  nodes `ns`, whatever the bound on tokens;
* `Xml.Node.Tidy.opens`: a tidy node is read as it was written;
* `Xml.Node.Tidy.readDocument`: so is a document whose root it is.
-/

namespace ContractNet.Xml

/-! ### Content -/

/-- At the front of `t`, the nodes `ns` stand before the end tag of the element `name`, and `rest`
after it. -/
structure Reads (name : Name) (t : Text) (ns : List Node) (rest : Text) : Prop where
  shorter : rest.length < t.length
  content : ∀ fuel, t.length < fuel → Xml.content fuel name t = .ok (ns, rest)

section Content

variable {t : Text} {name : Name} {fuel : Nat} {rest : Text}

theorem content_of_stop (ht : t ≠ []) (h : readToken t = .ok (.stop name, rest)) :
    content (fuel + 1) name t = .ok ([], rest) := by
  rw [content, h, ok_bind]
  · exact if_pos rfl
  · exact ht

theorem content_of_text (ht : t ≠ []) {s : Text} (h : readToken t = .ok (.text s, rest)) :
    content (fuel + 1) name t =
      content fuel name rest >>= fun x => pure (.text s :: x.1, x.2) := by
  rw [content, h, ok_bind]
  exact ht

theorem content_of_start (ht : t ≠ []) {n : Name} {as : List (Text × Text)}
    (h : readToken t = .ok (.start ⟨n, as, false⟩, rest)) :
    content (fuel + 1) name t = content fuel n rest >>= fun x =>
      content fuel name x.2 >>= fun y => pure (.element n.loc as x.1 :: y.1, y.2) := by
  rw [content, h, ok_bind]
  · rfl
  · exact ht

end Content

namespace Reads

variable {parent : Name} {name : Text} {ns : List Node} {rest : Text}

/-- An end tag ends the content. -/
theorem stop (h : isWord name = true) (t : Text) : Reads ⟨[], name⟩ (stopText name t) [] t where
  shorter := by simp [stopText]; omega
  content fuel hfuel := by
    obtain ⟨k, rfl⟩ : ∃ k, fuel = k + 1 := ⟨fuel - 1, by omega⟩
    exact content_of_stop (List.cons_ne_nil _ _) (readToken_stopText h t)

/-- A text in front of a tag. -/
theorem text {raw s t : Text} (hraw : StandsFor raw s) (hne : raw ≠ [])
    (h : Reads parent (0x3c :: t) ns rest) :
    Reads parent (raw ++ 0x3c :: t) (.text s :: ns) rest where
  shorter := by
    have := h.shorter
    rw [List.length_append]
    omega
  content fuel hfuel := by
    obtain ⟨k, rfl⟩ : ∃ k, fuel = k + 1 := ⟨fuel - 1, by omega⟩
    have hpos := List.length_pos_of_ne_nil hne
    rw [List.length_append] at hfuel
    rw [content_of_text (by simp) (hraw.readToken hne t), h.content k (by omega)]
    rfl

/-- An element with its content, and what follows it. -/
theorem element {as : List (Text × Text)} {t tail : Text} {kids : List Node}
    (hname : isWord name = true) (has : ∀ a ∈ as, isWord a.1 = true)
    (hkids : Reads ⟨[], name⟩ t kids tail) (h : Reads parent tail ns rest) :
    Reads parent (startText name as t) (.element name (as.map shownAttribute) kids :: ns) rest := by
  have hlen : t.length < (startText name as t).length := by
    simp only [startText, List.length_cons, List.length_append]
    omega
  refine ⟨?_, fun fuel hfuel => ?_⟩
  · have := h.shorter
    have := hkids.shorter
    omega
  · obtain ⟨k, rfl⟩ : ∃ k, fuel = k + 1 := ⟨fuel - 1, by omega⟩
    -- what follows the element is read with the fuel that was enough for all of it
    have := hkids.shorter
    have hne : startText name as t ≠ [] := List.cons_ne_nil _ _
    rw [content_of_start hne (readToken_startText hname has t),
      hkids.content k (by omega), ok_bind, h.content k (by omega)]
    rfl

end Reads

/-! ### Nodes -/

mutual

/-- The node with U+FFFD for what no document may hold. -/
def Node.represented : Node → Node
  | .text t => .text (representable t)
  | .element name attributes content =>
    .element name (attributes.map shownAttribute) (representedContent content)

/-- The nodes with U+FFFD for what no document may hold. -/
def representedContent : List Node → List Node
  | [] => []
  | n :: ns => n.represented :: representedContent ns

end

mutual

/-- The node with the white space that stands between the elements in it. -/
def Node.spread (level : Nat) : Node → Node
  | .text t => .text t
  | .element name attributes content =>
    .element name attributes (spreadContent (level + 1) content ++
      (if content.any Node.isElement then [.text (newLine level)] else []))

/-- Content with a line for each element; empty texts leave nothing. -/
def spreadContent (level : Nat) : List Node → List Node
  | [] => []
  | .text t :: ns => (if t.isEmpty then [] else [.text t]) ++ spreadContent level ns
  | n :: ns => .text (newLine level) :: n.spread level :: spreadContent level ns

end

/-- The node is an element with one text or with elements only, and its names have no prefix. -/
inductive Node.Tidy : Node → Prop
  | leaf {name : Text} {as : List (Text × Text)} (t : Text) (hname : isWord name = true)
      (has : ∀ a ∈ as, isWord a.1 = true) : Tidy (.element name as [.text t])
  | branch {name : Text} {as : List (Text × Text)} {kids : List Node} (hname : isWord name = true)
      (has : ∀ a ∈ as, isWord a.1 = true) (hkids : ∀ k ∈ kids, Tidy k) :
      Tidy (.element name as kids)

theorem representedContent_eq_map (ns : List Node) :
    representedContent ns = ns.map Node.represented := by
  induction ns with
  | nil => rfl
  | cons n ns ih => rw [representedContent, ih, List.map_cons]

theorem Node.isElement_represented (n : Node) : n.represented.isElement = n.isElement := by
  cases n <;> rfl

theorem any_representedContent (ns : List Node) :
    (representedContent ns).any Node.isElement = ns.any Node.isElement := by
  rw [representedContent_eq_map, List.any_map]
  exact congrArg ns.any (funext Node.isElement_represented)

/-- The text starts with an element, which is read as `m`; `tail` follows it. -/
def Opens (t : Text) (m : Node) (tail : Text) : Prop :=
  ∃ (name : Text) (as : List (Text × Text)) (kids : List Node) (inner : Text),
    isWord name = true ∧ (∀ a ∈ as, isWord a.1 = true) ∧ t = startText name as inner ∧
    m = .element name (as.map shownAttribute) kids ∧ Reads ⟨[], name⟩ inner kids tail

theorem Opens.reads {t tail rest : Text} {m : Node} {parent : Name} {ns : List Node}
    (h : Opens t m tail) (hr : Reads parent tail ns rest) : Reads parent t (m :: ns) rest := by
  obtain ⟨name, as, kids, inner, hname, has, rfl, rfl, hkids⟩ := h
  exact .element hname has hkids hr

/-- An element on a line of its own. -/
theorem Opens.reads_newLine {t tail rest : Text} {m : Node} {parent : Name} {ns : List Node}
    (h : Opens t m tail) (hr : Reads parent tail ns rest) (level : Nat) :
    Reads parent (newLine level ++ t) (.text (newLine level) :: m :: ns) rest := by
  have hreads := h.reads hr
  obtain ⟨name, as, kids, inner, -, -, rfl, -, -⟩ := h
  exact hreads.text (standsFor_newLine level) (List.cons_ne_nil _ _)

theorem renderAt_element (level : Nat) (name : Text) (as : List (Text × Text)) (kids : List Node)
    (tail : Text) :
    (Node.element name as kids).renderAt level ++ tail =
      startText name as (renderContent (level + 1) kids ++
        ((if kids.any Node.isElement then newLine level else []) ++ stopText name tail)) := by
  simp only [Node.renderAt, startText, stopText, List.append_assoc]
  rfl

theorem Node.Tidy.isElement {n : Node} (h : n.Tidy) : n.isElement = true := by
  cases h <;> rfl

section Element

variable {k : Node}

theorem renderContent_cons (hk : k.isElement = true) (level : Nat) (ks : List Node) :
    renderContent level (k :: ks) =
      newLine level ++ (k.renderAt level ++ renderContent level ks) := by
  cases k with
  | text t => cases hk
  | element name as kids => simp only [renderContent, List.append_assoc]

theorem spreadContent_cons (hk : k.isElement = true) (level : Nat) (ks : List Node) :
    spreadContent level (k :: ks) =
      .text (newLine level) :: k.spread level :: spreadContent level ks := by
  cases k with
  | text t => cases hk
  | element name as kids => simp only [spreadContent]

end Element

/-- The only text of an element; an empty one leaves nothing. -/
theorem reads_escape {name : Text} (hname : isWord name = true) (t tail : Text) :
    Reads ⟨[], name⟩ (escape t ++ stopText name tail)
      (if (representable t).isEmpty then [] else [.text (representable t)]) tail := by
  by_cases ht : t = []
  · rw [escape_eq_nil_iff.2 ht, representable_eq_nil_iff.2 ht]
    exact .stop hname tail
  · have hne : (representable t).isEmpty = false := by simpa using ht
    rw [hne]
    exact (Reads.stop hname tail).text (standsFor_escape t) (mt escape_eq_nil_iff.1 ht)

/-- Elements one after the other. -/
theorem reads_content {level : Nat} {kids : List Node} (helem : ∀ k ∈ kids, k.isElement = true)
    (hopens : ∀ k ∈ kids, ∀ tail,
      Opens (k.renderAt level ++ tail) (k.represented.spread level) tail)
    {parent : Name} {tail rest : Text} {ns : List Node} (h : Reads parent tail ns rest) :
    Reads parent (renderContent level kids ++ tail)
      (spreadContent level (representedContent kids) ++ ns) rest := by
  induction kids with
  | nil => exact h
  | cons k ks ih =>
    have hrest := ih (fun k hk => helem k (List.mem_cons_of_mem _ hk))
      fun k hk => hopens k (List.mem_cons_of_mem _ hk)
    have hk := helem k List.mem_cons_self
    rw [renderContent_cons hk, List.append_assoc, List.append_assoc, representedContent,
      spreadContent_cons (by rw [Node.isElement_represented, hk])]
    exact (hopens k List.mem_cons_self _).reads_newLine hrest level

/-- **A tidy node is read as it was written.** -/
theorem Node.Tidy.opens {n : Node} (h : n.Tidy) (level : Nat) (tail : Text) :
    Opens (n.renderAt level ++ tail) (n.represented.spread level) tail := by
  induction h generalizing level tail with
  | @leaf name as t hname has =>
    refine ⟨name, as, _, _, hname, has, renderAt_element level name as [.text t] tail, rfl, ?_⟩
    have := reads_escape hname t tail
    simpa [renderContent, representedContent, spreadContent, Node.represented, Node.isElement]
      using this
  | @branch name as kids hname has hkids ih =>
    -- the end tag stands on a line of its own if there are elements before it
    have hend : Reads ⟨[], name⟩
        ((if kids.any Node.isElement then newLine level else []) ++ stopText name tail)
        (if kids.any Node.isElement then [.text (newLine level)] else []) tail := by
      split
      · exact (Reads.stop hname tail).text (standsFor_newLine level) (List.cons_ne_nil _ _)
      · exact .stop hname tail
    refine ⟨name, as, _, _, hname, has, renderAt_element level name as kids tail, rfl, ?_⟩
    rw [any_representedContent]
    exact reads_content (fun k hk => (hkids k hk).isElement) (fun k hk => ih k hk (level + 1)) hend

/-! ### Going through content -/

/-- The content of an element that stands `level` levels deep, with white space. -/
def spreadKids (level : Nat) (kids : List Node) : List Node :=
  spreadContent (level + 1) kids ++
    (if kids.any Node.isElement then [.text (newLine level)] else [])

theorem Node.spread_element (level : Nat) (name : Text) (as : List (Text × Text))
    (kids : List Node) :
    (Node.element name as kids).spread level = .element name as (spreadKids level kids) := by
  rw [Node.spread, spreadKids]

/-- What passes over texts passes over white space. -/
theorem foldl_spreadKids {α : Type} {f : α → Node → α} (hf : ∀ a t, f a (.text t) = a)
    {kids : List Node} (helem : ∀ k ∈ kids, k.isElement = true) (level : Nat) (a : α) :
    (spreadKids level kids).foldl f a = kids.foldl (fun a k => f a (k.spread (level + 1))) a := by
  have hend : ∀ a : α, (if kids.any Node.isElement then [Node.text (newLine level)] else []).foldl
      f a = a := by
    intro a
    split
    · exact hf a _
    · rfl
  rw [spreadKids, List.foldl_append, hend]
  clear hend
  induction kids generalizing a with
  | nil => rfl
  | cons k ks ih =>
    rw [spreadContent_cons (helem k List.mem_cons_self), List.foldl_cons, hf, List.foldl_cons,
      List.foldl_cons, ih fun k hk => helem k (List.mem_cons_of_mem _ hk)]

/-! ### What is read is written as before -/

theorem renderAttribute_shown (a : Text × Text) :
    renderAttribute (shownAttribute a) = renderAttribute a := by
  simp only [renderAttribute, shownAttribute, escape_representable]

mutual

/-- A node with U+FFFD for what no document may hold is written as before. -/
theorem Node.renderAt_represented (level : Nat) :
    ∀ n : Node, n.represented.renderAt level = n.renderAt level
  | .text t => escape_representable t
  | .element name as kids => by
    have has : (as.map shownAttribute).flatMap renderAttribute = as.flatMap renderAttribute := by
      rw [List.flatMap_map]
      exact List.flatMap_congr fun a _ => renderAttribute_shown a
    simp only [Node.represented, Node.renderAt, has, renderContent_represented (level + 1) kids,
      any_representedContent]

theorem renderContent_represented (level : Nat) :
    ∀ ns : List Node, renderContent level (representedContent ns) = renderContent level ns
  | [] => rfl
  | .text t :: ns => by
    simp only [representedContent, Node.represented, renderContent, escape_representable,
      renderContent_represented level ns]
  | .element name as kids :: ns => by
    have hn := Node.renderAt_represented level (.element name as kids)
    rw [representedContent, renderContent_cons rfl, renderContent_cons rfl, hn,
      renderContent_represented level ns]

end

/-! ### Documents -/

section StartTag

variable {t rest : Text} {fuel : Nat}

theorem startTag_of_skipped (ht : t ≠ []) (h : readToken t = .ok (.skipped, rest)) :
    startTag (fuel + 1) t = startTag fuel rest := by
  rw [startTag, h, ok_bind]
  exact ht

theorem startTag_of_text (ht : t ≠ []) {s : Text} (h : readToken t = .ok (.text s, rest)) :
    startTag (fuel + 1) t = startTag fuel rest := by
  rw [startTag, h, ok_bind]
  exact ht

theorem startTag_of_start (ht : t ≠ []) {tag : Tag} (h : readToken t = .ok (.start tag, rest)) :
    startTag (fuel + 1) t = .ok (tag, rest) := by
  rw [startTag, h, ok_bind]
  · rfl
  · exact ht

end StartTag

/-- **A document is read as it was written**, if its root is a tidy node. -/
theorem Node.Tidy.readDocument {n : Node} (h : n.Tidy) {fuel : Nat} (hfuel : 3 ≤ fuel)
    (ending : Text) :
    ∃ (tag : Tag) (inner : Text) (kids : List Node),
      startTag fuel (header ++ (n.renderAt 0 ++ ending)) = .ok (tag, inner) ∧
      contentOf tag inner = .ok kids ∧
      n.represented.spread 0 = .element tag.name.loc tag.attributes kids := by
  obtain ⟨name, as, kids, inner, hname, has, hdoc, hnode, hkids⟩ := h.opens 0 ending
  obtain ⟨k, rfl⟩ : ∃ k, fuel = k + 1 + 1 + 1 := ⟨fuel - 3, by omega⟩
  refine ⟨⟨⟨[], name⟩, as.map shownAttribute, false⟩, inner, kids, ?_, ?_, hnode⟩
  · have hheader : header ++ startText name as inner ≠ [] :=
      List.append_ne_nil_of_left_ne_nil (by decide) _
    have htext : readToken (0x0a :: startText name as inner) =
        .ok (.text (newLine 0), startText name as inner) :=
      (standsFor_newLine 0).readToken (List.cons_ne_nil _ _) _
    rw [hdoc, startTag_of_skipped hheader (readToken_header _),
      startTag_of_text (List.cons_ne_nil _ _) htext]
    exact startTag_of_start (List.cons_ne_nil _ _) (readToken_startText hname has inner)
  · simp only [contentOf, Bool.false_eq_true, if_false, hkids.content _ (Nat.lt_succ_self _)]
    rfl

end ContractNet.Xml
