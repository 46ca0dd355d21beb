import Mathlib.Data.List.Perm.Basic
import SvgDisplayList.Error
import SvgDisplayList.Proofs.Xml.Tree

/-!
# Documents that are read are numbered

The builder gives every element the number of the elements before it.  At all times the elements
that it holds, those that are still open included, have distinct numbers below that of the next one
(`Builder.Numbered`).  Opening, closing and appending keep this; reading does nothing else to the
tree.  So no two elements of a document that has been read have the same place
(`Document.numbered_of_read`).
-/

namespace SvgDisplayList

/-- Whatever a computation yields has a property. -/
structure Yields {ε α : Type} (x : Except ε α) (p : α → Prop) : Prop where
  of_eq_ok : ∀ {a}, x = .ok a → p a

namespace Yields

variable {ε α β : Type} {x : Except ε α} {p : α → Prop} {q : β → Prop}

/-- A value that has the property. -/
lemma ok {a : α} (h : p a) : Yields (.ok a : Except ε α) p := ⟨fun heq => Except.ok.inj heq ▸ h⟩

/-- A failure yields nothing. -/
lemma error (e : ε) : Yields (.error e : Except ε α) p := ⟨fun h => by cases h⟩

/-- Two computations in a row. -/
lemma bind {f : α → Except ε β} (hx : Yields x p) (hf : ∀ a, p a → Yields (f a) q) :
    Yields (x >>= f) q := by
  cases x with
  | error e => exact error e
  | ok a => exact hf a (hx.of_eq_ok rfl)

/-- A computation of which nothing is known before another one. -/
lemma bind' {f : α → Except ε β} (hf : ∀ a, Yields (f a) q) : Yields (x >>= f) q :=
  bind (p := fun _ => True) ⟨fun _ => trivial⟩ fun a _ => hf a

/-- A computation whose value is used. -/
lemma map {f : α → β} (hx : Yields x p) (hf : ∀ a, p a → q (f a)) : Yields (x.map f) q := by
  cases x with
  | error e => exact error e
  | ok a => exact ok (hf a (hx.of_eq_ok rfl))

/-- A computation yields what it does, its failures being renamed. -/
lemma mapError (x : Except ε α) {ε' : Type} (f : ε → ε') :
    Yields (x.mapError f) fun a => x = .ok a := by
  cases x with
  | error e => exact error (f e)
  | ok a => exact ok rfl

/-- A value that is left when the failure is forgotten. -/
lemma of_toOption (h : Yields x p) {a : α} (ha : x.toOption = some a) : p a := by
  cases x with
  | error e => cases ha
  | ok b =>
    cases ha
    exact h.of_eq_ok rfl

end Yields

namespace Xml

/-! ## The places in a tree -/

namespace Node

/-- The places of the elements of a tree, in document order. -/
def orders (n : Node) : List Nat := (n.elements []).map (·.1.tag.order)

/-- The places do not depend on what stands above the tree. -/
lemma map_order_elements (n : Node) (ancestors : List Tag) :
    (n.elements ancestors).map (·.1.tag.order) = n.orders := by
  unfold orders
  induction n using Node.induction generalizing ancestors with
  | text s => rfl
  | element tag children ih =>
    rw [elements_element, elements_element, List.map_cons, List.map_cons, List.map_flatMap,
      List.map_flatMap]
    refine congrArg _ (List.flatMap_congr fun c hc => ?_)
    rw [ih c hc, ih c hc [tag]]

@[simp] lemma orders_text (s : String) : (text s).orders = [] := rfl

/-- The places of an element are its own and those of its children. -/
lemma orders_element (tag : Tag) (children : List Node) :
    (element tag children).orders = tag.order :: children.flatMap orders := by
  rw [orders, elements_element, List.map_cons, List.map_flatMap]
  exact congrArg _ (List.flatMap_congr fun c _ => map_order_elements c [tag])

end Node

/-! ## The builder -/

namespace Builder

/-- The places of the elements in a builder. -/
def orders (b : Builder) : List Nat :=
  b.opened.flatMap (fun e => e.tag.order :: e.children.flatMap Node.orders) ++
    b.finished.flatMap (·.node.orders)

/-- The elements of a builder have distinct places, all of them before that of the next element. -/
structure Numbered (b : Builder) : Prop where
  nodup : b.orders.Nodup
  lt_count : ∀ i ∈ b.orders, i < b.count

/-- Two builders that hold the same elements. -/
structure SameTree (b b' : Builder) : Prop where
  opened : b'.opened = b.opened
  finished : b'.finished = b.finished
  count : b'.count = b.count

/-- A builder holds its own elements. -/
lemma SameTree.refl (b : Builder) : SameTree b b := ⟨rfl, rfl, rfl⟩

/-- Nothing has changed if nothing has twice. -/
lemma SameTree.trans {a b c : Builder} (h : SameTree a b) (h' : SameTree b c) : SameTree a c :=
  ⟨h'.opened.trans h.opened, h'.finished.trans h.finished, h'.count.trans h.count⟩

namespace Numbered

variable {b b' : Builder}

/-- Nothing is held at the start. -/
lemma empty : empty.Numbered := ⟨List.nodup_nil, by simp [orders, Builder.empty]⟩

/-- The same elements in another order. -/
lemma of_perm (h : b.Numbered) (hperm : b'.orders.Perm b.orders) (hcount : b'.count = b.count) :
    b'.Numbered :=
  ⟨hperm.nodup_iff.mpr h.nodup, fun i hi => hcount ▸ h.lt_count i (hperm.subset hi)⟩

/-- The same elements and the next one. -/
lemma of_perm_cons (h : b.Numbered) (hperm : b'.orders.Perm (b.count :: b.orders))
    (hcount : b'.count = b.count + 1) :
    b'.Numbered := by
  have hfresh : b.count ∉ b.orders := fun hmem => Nat.lt_irrefl _ (h.lt_count _ hmem)
  refine ⟨hperm.nodup_iff.mpr (List.nodup_cons.mpr ⟨hfresh, h.nodup⟩), fun i hi => ?_⟩
  rw [hcount]
  rcases List.mem_cons.mp (hperm.subset hi) with rfl | hi
  · exact Nat.lt_succ_self _
  · exact Nat.lt_succ_of_lt (h.lt_count i hi)

/-- The same elements. -/
lemma of_sameTree (h : b.Numbered) (hsame : SameTree b b') : b'.Numbered := by
  refine h.of_perm (.of_eq ?_) hsame.count
  unfold orders
  rw [hsame.opened, hsame.finished]

end Numbered

/-! ## What the operations do to the places -/

variable (b : Builder)

/-- Appending a node adds its places. -/
lemma orders_append (n : Node) : (b.append n).orders.Perm (n.orders ++ b.orders) := by
  unfold append
  split
  · rename_i e es hopened
    unfold orders
    rw [hopened]
    simp only [List.flatMap_cons, List.append_assoc, List.cons_append]
    exact List.perm_middle.symm
  · rename_i hopened
    cases n with
    | text s => exact .refl _
    | element tag children =>
      unfold orders
      simp only [Node.element?, hopened, List.flatMap_nil, List.nil_append, List.flatMap_cons]
      exact .refl _

/-- Appending a node opens and counts nothing. -/
lemma count_append (n : Node) : (b.append n).count = b.count := by
  unfold append
  split
  · rfl
  · split <;> rfl

variable {b}

/-- Appending character data. -/
lemma Numbered.appendText (h : b.Numbered) (cs : List Char) : (b.appendText cs).Numbered := by
  unfold Builder.appendText
  split_ifs
  · exact h
  · exact h.of_perm (b.orders_append _) (b.count_append _)

/-- The end of a tag changes nothing in the tree. -/
lemma sameTree_endTag : Yields b.endTag fun r => SameTree b r.2.2 := by
  unfold endTag
  exact .bind' fun attributes => .ok ⟨rfl, rfl, rfl⟩

/-- A complete tag makes the next element, without children. -/
lemma resolve_spec (t : TagName) :
    Yields (b.resolve t) fun r => r.1.tag.order = b.count ∧ r.1.children = [] ∧ SameTree b r.2 := by
  unfold resolve
  refine .bind sameTree_endTag fun r hr => ?_
  exact .bind' fun space => .ok ⟨hr.count, rfl, hr⟩

/-- Opening an element. -/
lemma Numbered.openTag (h : b.Numbered) (t : TagName) : Yields (b.openTag t) Numbered := by
  unfold Builder.openTag
  refine .bind (resolve_spec t) fun r hr => .ok ?_
  obtain ⟨horder, hchildren, hsame⟩ := hr
  refine h.of_perm_cons (.of_eq ?_) (by rw [hsame.count])
  unfold orders
  rw [List.flatMap_cons, horder, hchildren, hsame.opened, hsame.finished]
  rfl

/-- Appending an element without content. -/
lemma Numbered.emptyTag (h : b.Numbered) (t : TagName) : Yields (b.emptyTag t) Numbered := by
  unfold Builder.emptyTag
  refine .bind (resolve_spec t) fun r hr => .ok ?_
  obtain ⟨horder, hchildren, hsame⟩ := hr
  have hnumbered := h.of_sameTree hsame
  refine hnumbered.of_perm_cons ?_ rfl
  have happend := r.2.orders_append (.element r.1.tag [])
  rw [Node.orders_element, horder, ← hsame.count] at happend
  exact happend

/-- Closing an element. -/
lemma Numbered.closeTag (h : b.Numbered) (space name : String) (at_ : Position) :
    Yields (b.closeTag space name at_) Numbered := by
  unfold Builder.closeTag
  split_ifs
  · exact .error _
  · refine .bind sameTree_endTag fun r hr => ?_
    have hnumbered := h.of_sameTree hr
    dsimp only
    split
    · exact .error _
    · rename_i e es hopened
      split_ifs
      · refine .ok (hnumbered.of_perm ((orders_append _ _).trans ?_) (count_append _ _))
        have hreverse : (e.children.reverse.flatMap Node.orders).Perm
            (e.children.flatMap Node.orders) :=
          (List.reverse_perm _).flatMap_right _
        unfold orders
        rw [hopened, Node.orders_element, List.flatMap_cons, ← List.append_assoc]
        exact ((hreverse.cons _).append_right _).append_right _
      · exact .error _

/-- An attribute changes nothing in the tree. -/
lemma sameTree_addAttribute (space name value : String) (at_ : Position) :
    Yields (b.addAttribute space name value at_) (SameTree b) := by
  unfold addAttribute
  split_ifs
  all_goals first
    | exact .error _
    | exact .ok ⟨rfl, rfl, rfl⟩

end Builder

/-! ## Reading -/

/-- The attributes of a tag change nothing in the tree. -/
lemma sameTree_readAttributes (entities : List Entity) (levels turns : Nat) (b : Builder)
    (c : Cursor) :
    Yields (readAttributes entities levels turns b c) fun r => Builder.SameTree b r.2.1 := by
  induction turns generalizing b c with
  | zero => exact .ok (.refl b)
  | succ turns ih =>
    unfold readAttributes
    split
    · exact .ok (.refl b)
    · dsimp only
      split
      · exact .error _
      · exact .bind' fun _ => .ok (.refl b)
      · exact .ok (.refl b)
      · split_ifs
        · exact .error _
        · refine .bind' fun _ => .bind' fun _ => ?_
          refine .bind (Builder.sameTree_addAttribute _ _ _ _) fun b' hb' => ?_
          refine ⟨fun hr => hb'.trans ?_⟩
          have hrest := (ih _ _).of_eq_ok hr
          exact ⟨hrest.opened, hrest.finished, hrest.count⟩

section Expand

variable {expand : Position → Cursor → Builder → Except XmlError Builder}

/-- Text is read into a numbered tree if replacement texts are. -/
lemma numbered_readText (hexpand : ∀ at_ c b, b.Numbered → Yields (expand at_ c b) Builder.Numbered)
    (levels : Nat) (entities : List Entity) (turns : Nat) (t : TextBuffer) {b : Builder}
    (h : b.Numbered) (c : Cursor) :
    Yields (readText levels entities expand turns t b c) Builder.Numbered := by
  induction turns generalizing t b c with
  | zero => exact .ok (h.appendText _)
  | succ turns ih =>
    unfold readText
    split
    · exact .ok (h.appendText _)
    · split
      · exact .error _
      · exact ih _ h _
      · split
        · exact .error _
        · refine .bind' fun references => ?_
          refine .bind (hexpand _ _ _ ((h.appendText _).of_sameTree ⟨rfl, rfl, rfl⟩))
            fun inner hinner => ?_
          dsimp only
          refine ih _ ?_ _
          exact hinner.of_sameTree ⟨rfl, rfl, rfl⟩
    · exact ih _ h _

/-- Content is read into a numbered tree if replacement texts are. -/
lemma Content.numbered_readWith
    (hexpand : ∀ at_ c b, b.Numbered → Yields (expand at_ c b) Builder.Numbered) (levels : Nat)
    (entities : List Entity) (turns depth : Nat) {b : Builder} (h : b.Numbered) (c : Cursor) :
    Yields (readWith levels entities expand turns depth b c) fun r => r.1.Numbered := by
  induction turns generalizing depth b c with
  | zero =>
    unfold readWith
    exact .ok h
  | succ turns ih =>
    cases depth with
    | zero =>
      unfold readWith
      exact .ok h
    | succ depth =>
      unfold readWith
      split
      · exact .ok h
      · exact .error _
      · split_ifs
        · exact .bind' fun _ => ih _ h _
        · exact .bind' fun _ => .bind' fun _ => ih _ (h.appendText _) _
        · exact .error _
      · exact .bind' fun _ => ih _ h _
      · refine .bind' fun _ => .bind' fun _ => ?_
        exact .bind (h.closeTag _ _ _) fun b' hb' => ih _ hb' _
      · refine .bind' fun _ => ?_
        dsimp only
        split_ifs
        · exact .error _
        · refine .bind (sameTree_readAttributes _ _ _ _ _) fun r hr => ?_
          have hnumbered : r.2.1.Numbered := h.of_sameTree ⟨hr.opened, hr.finished, hr.count⟩
          split
          · exact .ok hnumbered
          · exact .bind (hnumbered.emptyTag _) fun b' hb' => ih _ hb' _
          · exact .bind (hnumbered.openTag _) fun b' hb' => ih _ hb' _
      · refine .bind' fun _ => ?_
        dsimp only
        split_ifs
        · exact .error _
        · exact .bind (numbered_readText hexpand _ _ _ _ h _) fun b' hb' => ih _ hb' _

end Expand

/-- Content is read into a numbered tree. -/
lemma Content.numbered_read (entities : List Entity) (levels depth : Nat) {b : Builder}
    (h : b.Numbered) (c : Cursor) :
    Yields (read entities levels depth b c) fun r => r.1.Numbered := by
  induction levels generalizing depth b c with
  | zero => exact numbered_readWith (fun _ _ _ _ => .error _) _ _ _ _ h c
  | succ levels ih =>
    exact numbered_readWith (fun _ c' _ h' => (ih 1 h' c').map fun _ hr => hr) _ _ _ _ h c

namespace Document

/-- The root element is read into a numbered tree. -/
lemma numbered_readRoot (entities : List Entity) (c : Cursor) :
    Yields (readRoot entities c) fun r => r.1.Numbered := by
  unfold readRoot
  refine .bind' fun _ => ?_
  dsimp only
  split_ifs
  · exact .error _
  · refine .bind (sameTree_readAttributes _ _ _ _ _) fun r hr => ?_
    have hnumbered : r.2.1.Numbered :=
      Builder.Numbered.empty.of_sameTree ⟨hr.opened, hr.finished, hr.count⟩
    split
    · exact .ok hnumbered
    · exact .bind (hnumbered.emptyTag _) fun b' hb' => .ok hb'
    · exact .bind (hnumbered.openTag _) fun b' hb' => Content.numbered_read _ _ _ hb' _

/-- The root of a finished tree is numbered. -/
lemma numbered_of_finished {b : Builder} (h : b.Numbered) {root : Element}
    (hroot : root ∈ b.finished) :
    root.Numbered := by
  have hsublist : root.node.orders.Sublist b.orders := by
    refine .trans ?_ (List.sublist_append_right _ _)
    exact List.sublist_flatten_of_mem (List.mem_map_of_mem hroot)
  exact hsublist.nodup h.nodup

/-- A document that is read from characters is numbered. -/
lemma numbered_ofChars (cs : List Char) : Yields (ofChars cs) fun d => d.root.Numbered := by
  unfold ofChars
  extract_lets mark epilog body prolog
  have hepilog : ∀ r, r.1.Numbered → Yields (epilog r) fun d => d.root.Numbered := by
    intro r hr
    refine .bind' fun c => ?_
    split
    · exact .error _
    · split
      · exact .error _
      · exact .error _
      · rename_i root beside hfinished hopened
        exact .ok (numbered_of_finished hr (List.mem_reverse.mp (hfinished ▸ List.mem_cons_self)))
  have hbody : ∀ r, Yields (body r) fun d => d.root.Numbered := by
    intro r
    dsimp only [body]
    split_ifs
    · exact .bind (numbered_readRoot _ _) hepilog
    · exact .bind (p := fun r => r.1.Numbered) (.ok .empty) hepilog
  have hprolog : ∀ c, Yields (prolog c) fun d => d.root.Numbered := by
    intro c
    refine .bind' fun c => ?_
    split_ifs
    · exact .bind' fun _ => .bind' fun _ => .bind' hbody
    · exact .bind' hbody
  split_ifs
  · exact .bind' hprolog
  · exact .bind' hprolog

/-- A document that has been read is numbered. -/
theorem numbered_of_read {text : String} {document : Document} (h : read text = .ok document) :
    document.root.Numbered := by
  unfold read at h
  cases hd : ofText text with
  | error e =>
    rw [hd] at h
    cases h
  | ok d =>
    rw [hd] at h
    cases h
    exact (numbered_ofChars _).of_eq_ok hd

end Document

end Xml

end SvgDisplayList
