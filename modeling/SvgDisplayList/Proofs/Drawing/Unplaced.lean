import SvgDisplayList.Proofs.Drawing.Contribution

/-!
# Drawings apart from their matrices

The matrix of a place goes into the commands that are drawn there, and nowhere else: no length, no
paint and no report depends on it (`Stage.unplaced_node`).  So a drawing is the same but for the
matrices of its commands (`Drawing.unplaced`) wherever it is drawn, and it asks the fonts the same
(`Drawing.raisesAbort_eq_of_unplaced_eq`).

The induction is the one over drawings: on the number of uses that may still nest, and for each
number on the node.
-/

namespace SvgDisplayList

namespace Drawing

/-- What a drawing has apart from the matrices of its commands. -/
def unplaced (d : Drawing) : List Drawable × List Diagnostic :=
  (d.commands.map (·.drawable), d.diagnostics)

variable {a a' b b' : Drawing}

/-- One drawing over another. -/
lemma unplaced_append (a b : Drawing) :
    (a ++ b).unplaced = (a.unplaced.1 ++ b.unplaced.1, a.unplaced.2 ++ b.unplaced.2) := by
  unfold unplaced
  rw [commands_append, diagnostics_append, List.map_append]

/-- Drawings may be put over each other before or after their matrices are taken away. -/
lemma unplaced_append_congr (ha : a'.unplaced = a.unplaced) (hb : b'.unplaced = b.unplaced) :
    (a' ++ b').unplaced = (a ++ b).unplaced := by
  rw [unplaced_append, unplaced_append, ha, hb]

/-- A single command is the same apart from its matrix. -/
lemma unplaced_single (tag : Xml.Tag) (m m' : Matrix) (d : Option Drawable)
    (es : List ElementError) : (single tag m' d es).unplaced = (single tag m d es).unplaced := by
  cases d <;> rfl

/-- Drawings that replace each other apart from their matrices, or fail with the same error. -/
lemma unplaced_orFault {tag : Xml.Tag} {x x' : Except ElementError Drawing}
    (h : x'.map unplaced = x.map unplaced) :
    (orFault tag x').unplaced = (orFault tag x).unplaced := by
  cases x with
  | error e =>
    cases x' with
    | error e' =>
      obtain rfl : e' = e := Except.error.inj h
      rfl
    | ok d' => cases h
  | ok d =>
    cases x' with
    | error e' => cases h
    | ok d' => exact Except.ok.inj h

/-- The fonts are asked by what a command draws, and not by its matrix. -/
lemma raisesAbort_eq_of_unplaced_eq (h : a'.unplaced = a.unplaced) (fonts : FontSource) :
    a'.raisesAbort fonts = a.raisesAbort fonts := by
  let asks (d : Drawable) : Bool :=
    ((⟨d, .identity⟩ : DrawCommand).query?.map fonts.raisesAbort).getD false
  have hasks : ∀ d : Drawing, d.raisesAbort fonts = d.unplaced.1.any asks := by
    intro d
    unfold raisesAbort unplaced
    rw [List.any_map]
    rfl
  rw [hasks, hasks, h]

end Drawing

/-- Computations that go on alike end alike. -/
lemma map_bind_congr {ε α β γ : Type} {f f' : α → Except ε β} {g : β → γ} (x : Except ε α)
    (h : ∀ a, (f' a).map g = (f a).map g) : (x >>= f').map g = (x >>= f).map g := by
  cases x with
  | error e => rfl
  | ok a => exact h a

namespace Stage

/-- What a use does to a target is the same apart from its matrices, whatever the matrix of its
place. -/
def Reuse.IgnoresMatrix (reuse : Reuse) : Prop :=
  ∀ target ancestors (place : Place) m width height,
    (reuse target ancestors { place with matrix := m } width height).unplaced =
      (reuse target ancestors place width height).unplaced

variable (stage : Stage) {reuse? : Option Reuse}

/-! ## Elements without elements of their own -/

/-- A shape is the same apart from its matrix. -/
lemma unplaced_shape (shape : Shape) (tag : Xml.Tag) (place : Place) (m : Matrix) :
    (stage.shape shape tag { place with matrix := m }).map Drawing.unplaced =
      (stage.shape shape tag place).map Drawing.unplaced :=
  map_bind_congr _ fun _ => congrArg Except.ok (Drawing.unplaced_single _ _ _ _ _)

/-- A text is the same apart from its matrix. -/
lemma unplaced_text (e : Xml.Element) (place : Place) (m : Matrix) :
    (stage.text e { place with matrix := m }).map Drawing.unplaced =
      (stage.text e place).map Drawing.unplaced :=
  map_bind_congr _ fun _ => congrArg Except.ok (Drawing.unplaced_single _ _ _ _ _)

/-- An image is the same apart from its matrix. -/
lemma unplaced_image (tag : Xml.Tag) (place : Place) (m : Matrix) :
    (stage.image tag { place with matrix := m }).map Drawing.unplaced =
      (stage.image tag place).map Drawing.unplaced := by
  unfold image
  dsimp only
  split_ifs
  · rfl
  · exact map_bind_congr _ fun _ => congrArg Except.ok (Drawing.unplaced_single _ _ _ _ _)

/-- A use decides as before, and its target is moved with it. -/
lemma unplaced_use (hreuse : ∀ reuse ∈ reuse?, Reuse.IgnoresMatrix reuse) (tag : Xml.Tag)
    (ancestors : List Xml.Tag) (place : Place) (m : Matrix) :
    (stage.use reuse? tag ancestors { place with matrix := m }).map Drawing.unplaced =
      (stage.use reuse? tag ancestors place).map Drawing.unplaced := by
  unfold use
  cases tag.reference? with
  | none => rfl
  | some id =>
    dsimp only
    cases stage.registry.element? id with
    | none => rfl
    | some target =>
      dsimp only
      split_ifs
      · rfl
      · cases reuse? with
        | none => rfl
        | some reuse =>
          refine map_bind_congr _ fun x => map_bind_congr _ fun y => ?_
          refine map_bind_congr _ fun width => map_bind_congr _ fun height => ?_
          let inner : Place := { place with chain := id :: place.chain }
          exact congrArg Except.ok
            ((hreuse reuse rfl target.1 target.2 (inner.moved (.translate x y)) _ width height))

/-! ## Elements with their children -/

/-- Nodes that are the same apart from their matrices, drawn one over another. -/
lemma unplaced_nodes {ns : List Xml.Node} {ancestors : List Xml.Tag}
    (h : ∀ n ∈ ns, ∀ (place : Place) m,
      (stage.node reuse? n ancestors { place with matrix := m }).unplaced =
        (stage.node reuse? n ancestors place).unplaced) (place : Place) (m : Matrix) :
    (stage.nodes reuse? ns ancestors { place with matrix := m }).unplaced =
      (stage.nodes reuse? ns ancestors place).unplaced := by
  induction ns with
  | nil =>
    rw [nodes, nodes]
  | cons n ns ih =>
    obtain ⟨hn, hns⟩ := List.forall_mem_cons.mp h
    rw [nodes_cons, nodes_cons]
    exact Drawing.unplaced_append_congr (hn place m) (ih hns)

/-- The content of an element is the same apart from its matrices. -/
lemma unplaced_content (hreuse : ∀ reuse ∈ reuse?, Reuse.IgnoresMatrix reuse) {e : Xml.Element}
    (h : ∀ n ∈ e.children, ∀ ancestors (place : Place) m,
      (stage.node reuse? n ancestors { place with matrix := m }).unplaced =
        (stage.node reuse? n ancestors place).unplaced)
    (ancestors : List Xml.Tag) (place : Place) (m : Matrix) :
    (stage.content reuse? e ancestors { place with matrix := m }).unplaced =
      (stage.content reuse? e ancestors place).unplaced := by
  unfold content
  cases ElementKind.ofTag e.tag with
  | group => exact stage.unplaced_nodes (fun n hn => h n hn _) place m
  | switch =>
    dsimp only
    rw [firstNode_eq, firstNode_eq]
    cases hfind : e.children.find? isChoice with
    | none => rfl
    | some n => exact h n (List.mem_of_find?_eq_some hfind) _ place m
  | shape s => exact Drawing.unplaced_orFault (stage.unplaced_shape s e.tag place m)
  | text => exact Drawing.unplaced_orFault (stage.unplaced_text e place m)
  | image => exact Drawing.unplaced_orFault (stage.unplaced_image e.tag place m)
  | use => exact Drawing.unplaced_orFault (stage.unplaced_use hreuse e.tag ancestors place m)
  | definition | unsupported | ignored | unknown => rfl

/-- A node is the same apart from its matrices, if this holds of what uses do. -/
lemma unplaced_node_of_reuse (hreuse : ∀ reuse ∈ reuse?, Reuse.IgnoresMatrix reuse)
    (n : Xml.Node) (ancestors : List Xml.Tag) (place : Place) (m : Matrix) :
    (stage.node reuse? n ancestors { place with matrix := m }).unplaced =
      (stage.node reuse? n ancestors place).unplaced := by
  induction n using Xml.Node.induction generalizing ancestors place m with
  | text s =>
    rw [node, node]
  | element tag children ih =>
    rw [node_element, node_element]
    cases aside? tag with
    | some d => rw [Option.getD_some, Option.getD_some]
    | none =>
      rw [Option.getD_none, Option.getD_none]
      refine Drawing.unplaced_append_congr rfl ?_
      dsimp only
      cases stage.entered? tag place.style with
      | none => rfl
      | some entered =>
        exact stage.unplaced_content hreuse (e := ⟨tag, children⟩) ih ancestors
          ({ place with style := entered.1 }.moved entered.2) _

/-- What uses do is the same apart from matrices, however deep they may nest. -/
lemma ignoresMatrix_reuse (depth : Nat) :
    ∀ reuse ∈ stage.reuse depth, Reuse.IgnoresMatrix reuse := by
  induction depth with
  | zero =>
    intro reuse h
    cases h
  | succ depth ih =>
    rintro _ ⟨⟩ target ancestors place m width height
    dsimp only
    split_ifs
    · rw [enter_eq, enter_eq]
      refine Drawing.unplaced_append_congr rfl ?_
      dsimp only
      cases stage.entered? target.tag place.style with
      | none => rfl
      | some entered =>
        exact stage.unplaced_nodes (fun n _ => stage.unplaced_node_of_reuse ih n _)
          ({ place with style := entered.1 }.moved
            (entered.2.mul (symbolFit target.tag width height))) _
    · exact stage.unplaced_node_of_reuse ih _ _ _ _

/-- What a node draws and reports does not depend on the matrix of its place, but for the matrices
of its commands. -/
theorem unplaced_node (depth : Nat) (n : Xml.Node) (ancestors : List Xml.Tag) (place : Place)
    (m : Matrix) :
    (stage.node (stage.reuse depth) n ancestors { place with matrix := m }).unplaced =
      (stage.node (stage.reuse depth) n ancestors place).unplaced :=
  stage.unplaced_node_of_reuse (stage.ignoresMatrix_reuse depth) n ancestors place m

end Stage

end SvgDisplayList
