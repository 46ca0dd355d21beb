import SvgDisplayList.Proofs.Drawing.Expansion
import SvgDisplayList.Proofs.Xml.Tree

/-!
# What a node contributes to the display list

`Stage.contribution` is the list of commands that a node stands for, as a function of the node with
its ancestors, the inherited style, the matrix of the parent, and the identifiers of the uses around
it.  It knows no diagnostics, no faults that are caught, and no counting of levels: a use follows
its reference as long as `Stage.expansion` allows.  The recursion ends because every expansion makes
the chain longer, which the limit bounds, and everything else goes down the tree.

`Stage.commands_node` says that the drawing of a node has exactly these commands.
-/

namespace SvgDisplayList

namespace Stage

/-- What a shape, a text or an image draws in its own style and coordinates.  Of the stage it knows
the registry, the fonts and the size of the viewport. -/
def drawable? (e : Xml.Element) (style : Style) (registry : Registry) (fonts : FontSource)
    (viewportWidth viewportHeight : Float32) : Option Drawable :=
  let sizes : ReferenceSizes := ⟨style.fontSize, viewportWidth, viewportHeight⟩
  match ElementKind.ofTag e.tag with
  | .shape s =>
    (s.subpaths e.tag sizes).toOption.bind fun subpaths =>
      (PathCommand.ofSubpaths subpaths style registry sizes).1.map .path
  | .text =>
    (TextCommand.ofElement e style registry sizes fonts).toOption.bind fun r => r.1.map .text
  | .image =>
    if style.visible then
      (ImageCommand.ofTag e.tag sizes).toOption.bind fun c => c.map .image
    else none
  | _ => none

/-- What a shape, a text or an image draws on a stage. -/
def drawn? (stage : Stage) (e : Xml.Element) (style : Style) : Option Drawable :=
  drawable? e style stage.registry stage.fonts stage.viewportWidth stage.viewportHeight

/-- The commands that a node stands for whose parent has the style `s` and the matrix `m`, `chain`
being the identifiers of the uses that it is drawn through. -/
def contribution (stage : Stage) (n : Xml.Node) (ancestors : List Xml.Tag) (s : Style) (m : Matrix)
    (chain : List String) : List DrawCommand :=
  match n with
  | .text _ => []
  | .element tag children =>
    if (aside? tag).isSome then []
    else
      match stage.entered? tag s with
      | none => []
      | some (style, own) =>
        let matrix := m.mul own
        match ElementKind.ofTag tag with
        | .group =>
          children.flatMap fun c => stage.contribution c (tag :: ancestors) style matrix chain
        | .switch =>
          match _h : children.find? isChoice with
          | none => []
          | some c => stage.contribution c (tag :: ancestors) style matrix chain
        | .use =>
          match _h : stage.expansion tag ancestors style chain with
          | .error _ => []
          | .ok x =>
            let moved := matrix.mul (.translate x.x x.y)
            if x.target.name = "symbol" then
              match stage.entered? x.target.tag style with
              | none => []
              | some (inner, own) =>
                x.target.children.flatMap fun c =>
                  stage.contribution c (x.target.tag :: x.ancestors) inner
                    (moved.mul (own.mul (symbolFit x.target.tag x.width x.height))) (x.id :: chain)
            else stage.contribution x.target.node x.ancestors style moved (x.id :: chain)
        | _ => (stage.drawn? ⟨tag, children⟩ style).toList.map (⟨·, matrix⟩)
termination_by (stage.reuseLimit - chain.length, n)
decreasing_by
  case _ hc =>
    have := List.sizeOf_lt_of_mem hc
    exact Prod.Lex.right _ (by simp only [Xml.Node.element.sizeOf_spec]; omega)
  case _ =>
    have := List.sizeOf_lt_of_mem (List.mem_of_find?_eq_some _h)
    exact Prod.Lex.right _ (by simp only [Xml.Node.element.sizeOf_spec]; omega)
  all_goals
    have := length_lt_of_expansion _h
    exact Prod.Lex.left _ _ (by simp only [List.length_cons]; omega)

/-- What an element contributes, without the proofs that the recursion ends. -/
lemma contribution_element (stage : Stage) (tag : Xml.Tag) (children : List Xml.Node)
    (ancestors : List Xml.Tag) (s : Style) (m : Matrix) (chain : List String) :
    stage.contribution (.element tag children) ancestors s m chain =
      if (aside? tag).isSome then []
      else
        match stage.entered? tag s with
        | none => []
        | some (style, own) =>
          match ElementKind.ofTag tag with
          | .group =>
            children.flatMap fun c =>
              stage.contribution c (tag :: ancestors) style (m.mul own) chain
          | .switch =>
            match children.find? isChoice with
            | none => []
            | some c => stage.contribution c (tag :: ancestors) style (m.mul own) chain
          | .use =>
            match stage.expansion tag ancestors style chain with
            | .error _ => []
            | .ok x =>
              if x.target.name = "symbol" then
                match stage.entered? x.target.tag style with
                | none => []
                | some (inner, own') =>
                  x.target.children.flatMap fun c =>
                    stage.contribution c (x.target.tag :: x.ancestors) inner
                      (((m.mul own).mul (.translate x.x x.y)).mul
                        (own'.mul (symbolFit x.target.tag x.width x.height))) (x.id :: chain)
              else
                stage.contribution x.target.node x.ancestors style
                  ((m.mul own).mul (.translate x.x x.y)) (x.id :: chain)
          | _ => (stage.drawn? ⟨tag, children⟩ style).toList.map (⟨·, m.mul own⟩) := by
  rw [contribution]
  split_ifs
  · rfl
  · cases stage.entered? tag s with
    | none => rfl
    | some entered =>
      dsimp only
      cases ElementKind.ofTag tag with
      | switch =>
        dsimp only
        split
        · rename_i hfind
          rw [hfind]
        · rename_i hfind
          rw [hfind]
      | use =>
        dsimp only
        split
        · rename_i hx
          rw [hx]
        · rename_i hx
          simp only [hx]
      | group | shape | text | image | definition | unsupported | ignored | unknown => rfl

/-! ## Elements without children of their own -/

variable (stage : Stage)

/-- A shape draws its drawable under its matrix. -/
lemma commands_shape (s : Shape) (e : Xml.Element) (place : Place)
    (h : ElementKind.ofTag e.tag = .shape s) :
    (Drawing.orFault e.tag (stage.shape s e.tag place)).commands =
      (stage.drawn? e place.style).toList.map (⟨·, place.matrix⟩) := by
  unfold shape drawn? drawable? sizes
  simp only [h]
  cases s.subpaths e.tag ⟨place.style.fontSize, stage.viewportWidth, stage.viewportHeight⟩ with
  | error err => rfl
  | ok subpaths => exact Drawing.commands_single _ _ _ _

/-- A text draws its drawable under its matrix. -/
lemma commands_text (e : Xml.Element) (place : Place) (h : ElementKind.ofTag e.tag = .text) :
    (Drawing.orFault e.tag (stage.text e place)).commands =
      (stage.drawn? e place.style).toList.map (⟨·, place.matrix⟩) := by
  unfold text drawn? drawable? sizes
  simp only [h]
  cases TextCommand.ofElement e place.style stage.registry
    ⟨place.style.fontSize, stage.viewportWidth, stage.viewportHeight⟩ stage.fonts with
  | error err => rfl
  | ok r => exact Drawing.commands_single _ _ _ _

/-- An image draws its drawable under its matrix. -/
lemma commands_image (e : Xml.Element) (place : Place) (h : ElementKind.ofTag e.tag = .image) :
    (Drawing.orFault e.tag (stage.image e.tag place)).commands =
      (stage.drawn? e place.style).toList.map (⟨·, place.matrix⟩) := by
  unfold image drawn? drawable? sizes
  simp only [h]
  cases place.style.visible with
  | false => rfl
  | true =>
    cases ImageCommand.ofTag e.tag
        ⟨place.style.fontSize, stage.viewportWidth, stage.viewportHeight⟩ with
    | error err => rfl
    | ok c => exact Drawing.commands_single _ _ _ _

/-- What is not drawn where it stands draws nothing. -/
lemma commands_eq_nil_of_aside? {tag : Xml.Tag} {d : Drawing} (h : aside? tag = some d) :
    d.commands = [] := by
  unfold aside? at h
  split at h <;> cases h <;> rfl

/-! ## The drawing of a node -/

/-- A level is left for a use exactly if the chain is shorter than the limit. -/
lemma reuse_isSome_iff {depth : Nat} {chain : List String}
    (h : chain.length + depth = stage.reuseLimit) :
    (stage.reuse depth).isSome ↔ chain.length < stage.reuseLimit := by
  cases depth with
  | zero => simp only [reuse, Option.isSome_none, Bool.false_eq_true, false_iff]; omega
  | succ depth => simp only [reuse, Option.isSome_some, true_iff]; omega

/-- The commands of a list of nodes are those of its members, in order. -/
lemma commands_nodes_eq_flatMap (reuse? : Option Reuse) (ns : List Xml.Node)
    (ancestors : List Xml.Tag) (place : Place) :
    (stage.nodes reuse? ns ancestors place).commands =
      ns.flatMap fun n => (stage.node reuse? n ancestors place).commands := by
  induction ns with
  | nil => rw [nodes]; rfl
  | cons n ns ih => rw [nodes_cons, Drawing.commands_append, ih, List.flatMap_cons]

/-- What a use that is expanded contributes is what its target draws in one level less. -/
lemma commands_expanded {depth : Nat} {tag : Xml.Tag} {ancestors : List Xml.Tag} (place : Place)
    {x : Expansion} (hx : stage.expansion tag ancestors place.style place.chain = .ok x)
    (hdepth : place.chain.length + depth = stage.reuseLimit)
    (hlevel : ∀ deeper, depth = deeper + 1 → ∀ n ancestors place,
      place.chain.length + deeper = stage.reuseLimit →
        (stage.node (stage.reuse deeper) n ancestors place).commands =
          stage.contribution n ancestors place.style place.matrix place.chain) :
    (((stage.reuse depth).map fun reuse : Reuse =>
        reuse x.target x.ancestors (x.place place) x.width x.height).getD Drawing.empty).commands =
      if x.target.name = "symbol" then
        match stage.entered? x.target.tag place.style with
        | none => []
        | some (inner, own) =>
          x.target.children.flatMap fun c =>
            stage.contribution c (x.target.tag :: x.ancestors) inner
              ((place.matrix.mul (.translate x.x x.y)).mul
                (own.mul (symbolFit x.target.tag x.width x.height))) (x.id :: place.chain)
      else
        stage.contribution x.target.node x.ancestors place.style
          (place.matrix.mul (.translate x.x x.y)) (x.id :: place.chain) := by
  have hlt := length_lt_of_expansion hx
  obtain ⟨deeper, rfl⟩ : ∃ deeper, depth = deeper + 1 := ⟨depth - 1, by omega⟩
  have hdeeper : (x.place place).chain.length + deeper = stage.reuseLimit := by
    simp only [Expansion.place, Place.moved, List.length_cons]
    omega
  simp only [reuse, Option.map_some, Option.getD_some]
  split_ifs with hsymbol
  · rw [enter_eq]
    cases hentered : stage.entered? x.target.tag place.style with
    | none => simp [Expansion.place, Place.moved, hentered]
    | some inner =>
      simp only [Expansion.place, Place.moved, hentered, Drawing.commands_append,
        Drawing.commands_reports, List.nil_append, commands_nodes_eq_flatMap]
      exact List.flatMap_congr fun c _ => hlevel deeper rfl c _ _ hdeeper
  · exact hlevel deeper rfl x.target.node x.ancestors (x.place place) hdeeper

/-- What an element that is entered contributes is what its content draws, if this holds of its
children and of whatever a use draws in one level less. -/
lemma commands_content {depth : Nat} {tag : Xml.Tag} {children : List Xml.Node}
    {ancestors : List Xml.Tag} (place : Place) {s : Style} {m own : Matrix}
    (hdepth : place.chain.length + depth = stage.reuseLimit) (haside : aside? tag = none)
    (hs : stage.entered? tag s = some (place.style, own)) (hm : place.matrix = m.mul own)
    (hchildren : ∀ c ∈ children, ∀ place : Place, place.chain.length + depth = stage.reuseLimit →
      ∀ ancestors, (stage.node (stage.reuse depth) c ancestors place).commands =
        stage.contribution c ancestors place.style place.matrix place.chain)
    (hlevel : ∀ deeper, depth = deeper + 1 → ∀ n ancestors place,
      place.chain.length + deeper = stage.reuseLimit →
        (stage.node (stage.reuse deeper) n ancestors place).commands =
          stage.contribution n ancestors place.style place.matrix place.chain) :
    (stage.content (stage.reuse depth) ⟨tag, children⟩ ancestors place).commands =
      stage.contribution (.element tag children) ancestors s m place.chain := by
  rw [contribution_element]
  unfold content
  simp only [haside, hs, Option.isSome_none, Bool.false_eq_true, if_false, ← hm]
  cases hkind : ElementKind.ofTag tag with
  | group =>
    dsimp only
    rw [commands_nodes_eq_flatMap]
    exact List.flatMap_congr fun c hc => hchildren c hc place hdepth _
  | switch =>
    dsimp only
    rw [firstNode_eq]
    cases hfind : children.find? isChoice with
    | none => simp
    | some c => simpa using hchildren c (List.mem_of_find?_eq_some hfind) place hdepth _
  | shape shape => exact stage.commands_shape shape ⟨tag, children⟩ place hkind
  | text => exact stage.commands_text ⟨tag, children⟩ place hkind
  | image => exact stage.commands_image ⟨tag, children⟩ place hkind
  | use =>
    dsimp only
    rw [use_eq_expansion stage _ _ _ _ (stage.reuse_isSome_iff hdepth)]
    cases hx : stage.expansion tag ancestors place.style place.chain with
    | error e => simp [Except.map]
    | ok x =>
      simp only [Except.map, Drawing.orFault_ok]
      exact stage.commands_expanded place hx hdepth hlevel
  | definition => simp [aside?, hkind] at haside
  | unsupported => simp [aside?, hkind] at haside
  | ignored => simp [aside?, hkind] at haside
  | unknown => simp [aside?, hkind] at haside

/-- The drawing of a node has the commands that the node contributes.  The induction is on the
number of levels left, and for each number on the node. -/
theorem commands_node (depth : Nat) (n : Xml.Node) (ancestors : List Xml.Tag) (place : Place)
    (hdepth : place.chain.length + depth = stage.reuseLimit) :
    (stage.node (stage.reuse depth) n ancestors place).commands =
      stage.contribution n ancestors place.style place.matrix place.chain := by
  induction depth using Nat.strongRecOn generalizing n ancestors place with
  | ind depth hlevel =>
    induction n using Xml.Node.induction generalizing ancestors place with
    | text s => rw [contribution, node]; rfl
    | element tag children hchildren =>
      rw [node_element]
      cases haside : aside? tag with
      | some d =>
        rw [contribution_element]
        simp [haside, commands_eq_nil_of_aside? haside]
      | none =>
        cases hentered : stage.entered? tag place.style with
        | none => rw [contribution_element]; simp [haside, hentered]
        | some entered =>
          obtain ⟨style, own⟩ := entered
          exact stage.commands_content ({ place with style }.moved own) hdepth haside hentered rfl
            (fun c hc place hplace ancestors => hchildren c hc ancestors place hplace)
            (fun deeper hdeeper n ancestors place hplace =>
              hlevel deeper (by omega) n ancestors place hplace)

end Stage

end SvgDisplayList
