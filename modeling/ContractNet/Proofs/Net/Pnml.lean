import ContractNet.Net.Pnml
import ContractNet.Proofs.Net.Texts
import ContractNet.Proofs.Xml.RoundTrip

/-!
# Nets written as documents and read back

* `Net.written` is what is left of a net: its type, or the core model, and U+FFFD in its texts for
  what no document may hold;
* `Net.documentChild_spread`: the elements of a net, with white space between them, mean the net;
* `Net.readPnml_toPnml`: the document of a net is read as `Net.written`, which has the same
  document.
-/

namespace ContractNet

open Xml

/-! ### What is left of a net -/

/-- The place as it is read back. -/
def Place.written (p : Place) : Place :=
  ⟨representable p.id, representable p.name, p.marking.map representable⟩

/-- The transition as it is read back. -/
def Transition.written (t : Transition) : Transition :=
  ⟨representable t.id, representable t.name, t.guard.map representable⟩

/-- The arc as it is read back. -/
def Arc.written (a : Arc) : Arc :=
  ⟨representable a.id, representable a.source, representable a.target, representable a.inscription⟩

/-- The page as it is read back. -/
def Page.written (p : Page) : Page where
  id := representable p.id
  places := p.places.map Place.written
  transitions := p.transitions.map Transition.written
  arcs := p.arcs.map Arc.written

/-- The net as it is read back. -/
def Net.written (n : Net) : Net where
  id := representable n.id
  type := representable n.effectiveType
  page := n.page.map Page.written

theorem Net.effectiveType_of_ne_nil {n : Net} (h : n.type ≠ []) : n.effectiveType = n.type :=
  if_neg (by simpa using h)

/-- Nothing changes in a net with a type and representable texts. -/
theorem Net.written_eq_self {n : Net} (htype : n.type ≠ [])
    (htexts : ∀ t ∈ n.texts, IsRepresentable t) : n.written = n := by
  have h : ∀ t ∈ n.texts, representable t = t := fun t ht =>
    representable_eq_self_iff.2 (htexts t ht)
  have hpage : n.page.map Page.written = n.page := congrArg Net.page (mapTexts_eq_self h)
  simp only [texts, List.forall_mem_cons] at h
  rw [written, h.1, effectiveType_of_ne_nil htype, h.2.1, hpage]

/-! ### Elements -/

theorem textElement_tidy {name : Text} (h : isWord name = true) (t : Text) :
    (textElement name t).Tidy := by
  have htext : (Node.element "text" [] [.text t]).Tidy :=
    .leaf t (isWord_ofString (by decide)) (fun _ ha => nomatch ha)
  exact .branch h (fun _ ha => nomatch ha) fun k hk => by
    obtain rfl := List.mem_singleton.1 hk
    exact htext

theorem nameElement_tidy (t : Text) : ∀ k ∈ nameElement t, k.Tidy := by
  intro k hk
  unfold nameElement at hk
  split at hk
  · cases hk
  · obtain rfl := List.mem_singleton.1 hk
    exact textElement_tidy (isWord_ofString (by decide)) t

theorem optionElement_tidy {name : Text} (h : isWord name = true) (t : Option Text) :
    ∀ k ∈ (t.map (textElement name)).toList, k.Tidy := by
  intro k hk
  cases t with
  | none => cases hk
  | some t =>
    obtain rfl := List.mem_singleton.1 hk
    exact textElement_tidy h t

theorem isWord_id : isWord "id" = true := isWord_ofString (by decide)

theorem Place.toNode_tidy (p : Place) : p.toNode.Tidy := by
  refine .branch (isWord_ofString (by decide)) (by simpa using isWord_id) fun k hk => ?_
  rcases List.mem_append.1 hk with hk | hk
  · exact nameElement_tidy _ k hk
  · exact optionElement_tidy (isWord_ofString (by decide)) _ k hk

theorem Transition.toNode_tidy (t : Transition) : t.toNode.Tidy := by
  refine .branch (isWord_ofString (by decide)) (by simpa using isWord_id) fun k hk => ?_
  rcases List.mem_append.1 hk with hk | hk
  · exact nameElement_tidy _ k hk
  · exact optionElement_tidy (isWord_ofString (by decide)) _ k hk

theorem Arc.toNode_tidy (a : Arc) : a.toNode.Tidy := by
  have hsource : isWord "source" = true := isWord_ofString (by decide)
  have htarget : isWord "target" = true := isWord_ofString (by decide)
  refine .branch (isWord_ofString (by decide)) (by simpa using ⟨isWord_id, hsource, htarget⟩)
    fun k hk => ?_
  obtain rfl := List.mem_singleton.1 hk
  exact textElement_tidy (isWord_ofString (by decide)) _

theorem Page.toNode_tidy (p : Page) : p.toNode.Tidy := by
  refine .branch (isWord_ofString (by decide)) (by simpa using isWord_id) fun k hk => ?_
  simp only [List.mem_append, List.mem_map] at hk
  rcases hk with (⟨q, -, rfl⟩ | ⟨t, -, rfl⟩) | ⟨a, -, rfl⟩
  · exact q.toNode_tidy
  · exact t.toNode_tidy
  · exact a.toNode_tidy

/-- The root element of the document of a net with the page `p`. -/
def Net.rootNode (n : Net) (p : Page) : Node :=
  .element "pnml" [] [.element "net" [("id", n.id), ("type", n.effectiveType)] [p.toNode]]

theorem Net.rootNode_tidy (n : Net) (p : Page) : (n.rootNode p).Tidy := by
  have htype : isWord "type" = true := isWord_ofString (by decide)
  have hnet : (Node.element "net" [("id", n.id), ("type", n.effectiveType)] [p.toNode]).Tidy := by
    refine .branch (isWord_ofString (by decide)) (by simpa using ⟨isWord_id, htype⟩) fun k hk => ?_
    obtain rfl := List.mem_singleton.1 hk
    exact p.toNode_tidy
  refine .branch (isWord_ofString (by decide)) (fun _ ha => nomatch ha) fun k hk => ?_
  obtain rfl := List.mem_singleton.1 hk
  exact hnet

/-! ### The elements of what is read back -/

theorem represented_nameElement (t : Text) :
    (nameElement t).map Node.represented = nameElement (representable t) := by
  by_cases ht : t = []
  · rw [nameElement, nameElement, representable_eq_nil_iff.2 ht, ht]
    rfl
  · have hne : (representable t).isEmpty = false := by simpa using ht
    have ht' : t.isEmpty = false := by simpa using ht
    rw [nameElement, nameElement, hne, ht']
    rfl

theorem represented_optionElement (name : Text) (t : Option Text) :
    (t.map (textElement name)).toList.map Node.represented =
      ((t.map representable).map (textElement name)).toList := by
  cases t <;> rfl

theorem Place.toNode_written (p : Place) : p.written.toNode = p.toNode.represented := by
  rw [toNode, toNode, Node.represented, representedContent_eq_map, List.map_append,
    represented_nameElement, represented_optionElement]
  rfl

theorem Transition.toNode_written (t : Transition) : t.written.toNode = t.toNode.represented := by
  rw [toNode, toNode, Node.represented, representedContent_eq_map, List.map_append,
    represented_nameElement, represented_optionElement]
  rfl

theorem Arc.toNode_written (a : Arc) : a.written.toNode = a.toNode.represented := rfl

theorem Page.toNode_written (p : Page) : p.written.toNode = p.toNode.represented := by
  rw [toNode, toNode, Node.represented, representedContent_eq_map]
  simp only [Page.written, List.map_append, List.map_map, Function.comp_def, Place.toNode_written,
    Transition.toNode_written, Arc.toNode_written]
  rfl

theorem Net.effectiveType_ne_nil (n : Net) : n.effectiveType ≠ [] := by
  unfold effectiveType
  split
  · decide
  · rename_i h
    simpa using h

theorem Net.effectiveType_written (n : Net) :
    n.written.effectiveType = representable n.effectiveType :=
  effectiveType_of_ne_nil (mt representable_eq_nil_iff.1 n.effectiveType_ne_nil)

theorem Net.rootNode_written (n : Net) (p : Page) :
    n.written.rootNode p.written = (n.rootNode p).represented := by
  simp only [rootNode, Page.toNode_written, effectiveType_written]
  rfl

/-! ### Reading elements -/

theorem ownText_spreadKids (level : Nat) (t : Text) : ownText (spreadKids level [.text t]) = t := by
  by_cases ht : t = []
  · subst ht
    rfl
  · have hne : t.isEmpty = false := by simpa using ht
    simp [spreadKids, spreadContent, hne, ownText, Node.isElement]

theorem innerText_spreadKids (old t : Text) (level : Nat) :
    innerText old (spreadKids level [.element "text" [] [.text t]]) = t := by
  rw [innerText, foldl_spreadKids (fun _ _ => rfl) (by simp [Node.isElement]), List.foldl_cons,
    List.foldl_nil, Node.spread_element]
  exact (if_pos rfl).trans (ownText_spreadKids _ _)

theorem placeChild_name (p : Place) (t : Text) (level : Nat) :
    placeChild p ((textElement "name" t).spread level) = { p with name := t } := by
  rw [textElement, Node.spread_element, placeChild, if_pos rfl, innerText_spreadKids]

theorem placeChild_marking (p : Place) (t : Text) (level : Nat) :
    placeChild p ((textElement "initialMarking" t).spread level) =
      { p with marking := some t } := by
  rw [textElement, Node.spread_element, placeChild, if_neg (by decide), if_pos rfl,
    innerText_spreadKids]

theorem transitionChild_name (r : Transition) (t : Text) (level : Nat) :
    transitionChild r ((textElement "name" t).spread level) = { r with name := t } := by
  rw [textElement, Node.spread_element, transitionChild, if_pos rfl, innerText_spreadKids]

theorem transitionChild_guard (r : Transition) (t : Text) (level : Nat) :
    transitionChild r ((textElement "guard" t).spread level) = { r with guard := some t } := by
  rw [textElement, Node.spread_element, transitionChild, if_neg (by decide), if_pos rfl,
    innerText_spreadKids]

theorem arcChild_inscription (a : Arc) (t : Text) (level : Nat) :
    arcChild a ((textElement "inscription" t).spread level) = { a with inscription := t } := by
  rw [textElement, Node.spread_element, arcChild, if_pos rfl, innerText_spreadKids]

/-- Going through the element of a name, which is missing if the name is empty. -/
theorem foldl_nameElement {α : Type} {f : α → Node → α} {g : Text → α}
    (h : ∀ t, f (g []) (textElement "name" t) = g t) (t : Text) :
    (nameElement t).foldl f (g []) = g t := by
  unfold nameElement
  split
  · rename_i he
    rw [List.isEmpty_iff.1 he]
    rfl
  · exact h t

/-- Going through the element of a text that may be absent. -/
theorem foldl_optionElement {α : Type} {f : α → Node → α} {g : Option Text → α} {name : Text}
    (h : ∀ t, f (g none) (textElement name t) = g (some t)) (t : Option Text) :
    (t.map (textElement name)).toList.foldl f (g none) = g t := by
  cases t with
  | none => rfl
  | some t => exact h t

theorem attributeOr_id (x : Text) : attributeOr [] [("id", x)] "id" = x := rfl

theorem Place.ofElement_spread (p : Place) (level : Nat) :
    Place.ofElement [("id", p.id)] (spreadKids level (nameElement p.name ++
      (p.marking.map (textElement "initialMarking")).toList)) = p := by
  have helem : ∀ k ∈ nameElement p.name ++
      (p.marking.map (textElement "initialMarking")).toList, k.isElement = true := by
    intro k hk
    rcases List.mem_append.1 hk with hk | hk
    · exact (nameElement_tidy _ k hk).isElement
    · exact (optionElement_tidy (isWord_ofString (by decide)) _ k hk).isElement
  rw [ofElement, foldl_spreadKids (fun _ _ => rfl) helem, List.foldl_append, attributeOr_id,
    foldl_nameElement (g := fun t => Place.mk p.id t none) fun t => placeChild_name _ t _,
    foldl_optionElement (g := fun t => Place.mk p.id p.name t) fun t => placeChild_marking _ t _]

theorem Transition.ofElement_spread (r : Transition) (level : Nat) :
    Transition.ofElement [("id", r.id)] (spreadKids level (nameElement r.name ++
      (r.guard.map (textElement "guard")).toList)) = r := by
  have helem : ∀ k ∈ nameElement r.name ++ (r.guard.map (textElement "guard")).toList,
      k.isElement = true := by
    intro k hk
    rcases List.mem_append.1 hk with hk | hk
    · exact (nameElement_tidy _ k hk).isElement
    · exact (optionElement_tidy (isWord_ofString (by decide)) _ k hk).isElement
  rw [ofElement, foldl_spreadKids (fun _ _ => rfl) helem, List.foldl_append, attributeOr_id,
    foldl_nameElement (g := fun t => Transition.mk r.id t none) fun t => transitionChild_name _ t _,
    foldl_optionElement (g := fun t => Transition.mk r.id r.name t)
      fun t => transitionChild_guard _ t _]

theorem Arc.ofElement_spread (a : Arc) (level : Nat) :
    Arc.ofElement [("id", a.id), ("source", a.source), ("target", a.target)]
      (spreadKids level [textElement "inscription" a.inscription]) = a := by
  rw [ofElement, foldl_spreadKids (fun _ _ => rfl) (by simp [textElement, Node.isElement]),
    List.foldl_cons, List.foldl_nil, arcChild_inscription]
  rfl

/-! ### Reading pages and nets -/

theorem pageChild_place (p : Page) (q : Place) (level : Nat) :
    pageChild p (q.toNode.spread level) = { p with places := p.places ++ [q] } := by
  rw [Place.toNode, Node.spread_element, pageChild, if_pos rfl, Place.ofElement_spread]

theorem pageChild_transition (p : Page) (t : Transition) (level : Nat) :
    pageChild p (t.toNode.spread level) = { p with transitions := p.transitions ++ [t] } := by
  rw [Transition.toNode, Node.spread_element, pageChild, if_neg (by decide), if_pos rfl,
    Transition.ofElement_spread]

theorem pageChild_arc (p : Page) (a : Arc) (level : Nat) :
    pageChild p (a.toNode.spread level) = { p with arcs := p.arcs ++ [a] } := by
  rw [Arc.toNode, Node.spread_element, pageChild, if_neg (by decide), if_neg (by decide),
    if_pos rfl, Arc.ofElement_spread]

/-- Going through elements that each add one thing adds them all. -/
theorem foldl_map_append {α β γ : Type} (add : α → List γ → α) (hnil : ∀ a, add a [] = a)
    (happend : ∀ a xs ys, add (add a xs) ys = add a (xs ++ ys)) {f : α → β → α} {toNode : γ → β}
    (h : ∀ a x, f a (toNode x) = add a [x]) (xs : List γ) (a : α) :
    (xs.map toNode).foldl f a = add a xs := by
  induction xs generalizing a with
  | nil => exact (hnil a).symm
  | cons x xs ih => rw [List.map_cons, List.foldl_cons, h, ih, happend, List.singleton_append]

theorem Page.foldl_spread (p : Page) (level : Nat) :
    (spreadKids level (p.places.map Place.toNode ++ p.transitions.map Transition.toNode ++
      p.arcs.map Arc.toNode)).foldl pageChild { id := p.id } = p := by
  have helem : ∀ k ∈ p.places.map Place.toNode ++ p.transitions.map Transition.toNode ++
      p.arcs.map Arc.toNode, k.isElement = true := by
    simp only [List.mem_append, List.mem_map]
    rintro _ ((⟨q, -, rfl⟩ | ⟨t, -, rfl⟩) | ⟨a, -, rfl⟩)
    · exact q.toNode_tidy.isElement
    · exact t.toNode_tidy.isElement
    · exact a.toNode_tidy.isElement
  let step : Page → Node → Page := fun p k => pageChild p (k.spread (level + 1))
  have hplace : ∀ (p : Page) q, step p (Place.toNode q) = { p with places := p.places ++ [q] } :=
    fun p q => pageChild_place p q _
  have htransition : ∀ (p : Page) t, step p (Transition.toNode t) =
      { p with transitions := p.transitions ++ [t] } := fun p t => pageChild_transition p t _
  have harc : ∀ (p : Page) a, step p (Arc.toNode a) = { p with arcs := p.arcs ++ [a] } :=
    fun p a => pageChild_arc p a _
  have hplaces := foldl_map_append (fun (p : Page) qs => { p with places := p.places ++ qs })
    (by simp) (by simp) hplace
  have htransitions := foldl_map_append
    (fun (p : Page) ts => { p with transitions := p.transitions ++ ts }) (by simp) (by simp)
    htransition
  have harcs := foldl_map_append (fun (p : Page) as => { p with arcs := p.arcs ++ as })
    (by simp) (by simp) harc
  rw [foldl_spreadKids (fun _ _ => rfl) helem, List.foldl_append, List.foldl_append, hplaces,
    htransitions, harcs]
  rfl

theorem netChild_page (p : Page) (level : Nat) :
    netChild { id := [] } (p.toNode.spread level) = p := by
  rw [Page.toNode, Node.spread_element, netChild, if_pos rfl]
  exact p.foldl_spread level

/-- **The elements of a net mean the net.** -/
theorem Net.documentChild_spread (n : Net) (p : Page) (level : Nat) :
    documentChild {} ((Node.element "net" [("id", n.id), ("type", n.effectiveType)]
      [p.toNode]).spread level) = ⟨n.id, n.effectiveType, p⟩ := by
  rw [Node.spread_element, documentChild, if_pos rfl, foldl_spreadKids (fun _ _ => rfl)
    (by simpa using p.toNode_tidy.isElement), List.foldl_cons, List.foldl_nil, netChild_page]
  rfl

/-! ### Documents -/

theorem Net.toPnml?_eq {n : Net} {p : Page} (h : n.page = some p) :
    n.toPnml? = some (Xml.header ++ ((n.rootNode p).renderAt 0 ++ "\n")) := by
  rw [toPnml?, pnmlBody?, toNode?, h, ← List.append_assoc]
  rfl

/-- The document of a net means what is left of it. -/
theorem Net.readPnml_render (n : Net) (p : Page) {doc : Text}
    (hdoc : doc = Xml.header ++ ((n.rootNode p).renderAt 0 ++ "\n")) :
    Net.readPnml doc = .ok ⟨n.written.id, n.written.effectiveType, some p.written⟩ := by
  have hlen : 3 ≤ doc.length + 1 := by
    have : Xml.header.length = 39 := by decide
    rw [hdoc, List.length_append]
    omega
  obtain ⟨tag, inner, kids, hstart, hcontent, hnode⟩ :=
    (n.rootNode_tidy p).readDocument hlen "\n"
  rw [← hdoc] at hstart
  -- what is read is the root of what is left of the net, with white space
  rw [← rootNode_written, rootNode, Node.spread_element] at hnode
  obtain ⟨hname, -, rfl⟩ := Node.element.inj hnode
  have hfold : (spreadKids 0 [.element "net" [("id", n.written.id),
      ("type", n.written.effectiveType)] [p.written.toNode]]).foldl documentChild {} =
      ⟨n.written.id, n.written.effectiveType, p.written⟩ := by
    rw [foldl_spreadKids (fun _ _ => rfl) (by simp [Node.isElement]), List.foldl_cons,
      List.foldl_nil, documentChild_spread]
  rw [readPnml, hstart]
  simp only [Except.mapError, ok_bind, ← hname, hcontent, hfold]
  rfl

/-- **Writing a net and reading the document** leaves the net as it was, up to a type for a net
without one and U+FFFD for what no document may hold; in particular, a net with a type and
representable texts is not changed.  The net that is read has the same document. -/
theorem Net.readPnml_toPnml {n : Net} {p : Page} (h : n.page = some p) :
    ∃ doc, n.toPnml? = some doc ∧ Net.readPnml doc = .ok n.written ∧
      n.written.toPnml? = some doc ∧
      (n.type ≠ [] → (∀ t ∈ n.texts, IsRepresentable t) → n.written = n) := by
  have hpage : n.written.page = some p.written := by rw [written, h]; rfl
  refine ⟨_, toPnml?_eq h, ?_, ?_, written_eq_self⟩
  · rw [readPnml_render n p rfl, effectiveType_written, ← hpage]
    rfl
  · rw [toPnml?_eq hpage, rootNode_written, Node.renderAt_represented]

/-- A net whose texts hold marks, quotes and ends of lines. -/
def Net.quoted : Net where
  id := "n \"1\""
  type := "t"
  page := some {
    id := []
    places := [⟨"p", "a < b & c\r\n", some []⟩]
    transitions := [⟨"t", [], some "[x > '0']\t"⟩]
    arcs := [⟨"a", "p", "t", "]]>"⟩] }

/-- A net without type, with a stray byte as an id and a control character in a guard. -/
def Net.stray : Net where
  id := []
  type := []
  page := some {
    id := "p"
    places := [⟨[0xff], "x", none⟩]
    transitions := [⟨"t", [], some [0x01]⟩] }

theorem Net.readPnml_toPnml_quoted :
    (∃ doc, Net.quoted.toPnml? = some doc ∧ Net.readPnml doc = .ok Net.quoted) ∧
      ∃ doc, Net.stray.toPnml? = some doc ∧ Net.readPnml doc = .ok {
        id := []
        type := coreModelType
        page := some {
          id := "p"
          places := [⟨"\uFFFD", "x", none⟩]
          transitions := [⟨"t", [], some "\uFFFD"⟩] } } := by
  obtain ⟨doc, hdoc, hread, -, hself⟩ := Net.readPnml_toPnml (n := Net.quoted) rfl
  have hrep : ∀ t ∈ Net.quoted.texts, representable t = t := by decide +kernel
  have hquoted := hself (by decide) fun t ht => representable_eq_self_iff.1 (hrep t ht)
  obtain ⟨doc', hdoc', hread', -⟩ := Net.readPnml_toPnml (n := Net.stray) rfl
  refine ⟨⟨doc, hdoc, by rw [hread, hquoted]⟩, doc', hdoc', hread'.trans (congrArg _ ?_)⟩
  decide +kernel

end ContractNet
