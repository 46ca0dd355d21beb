import SvgDisplayList.Proofs.Drawing.Contribution

/-!
# What a node comes to

`Stage.occurrences` lists the shapes, texts and images that the drawing of a node comes to, in
order, each with its style, its matrix, and the tags along which the style has come to it.  Whether
they draw anything does not matter here; what they draw is what the node contributes
(`Stage.contribution_eq`).
-/

namespace SvgDisplayList

/-- A shape, a text or an image where the drawing of a document comes to it. -/
structure Occurrence where
  element : Xml.Element
  style : Style
  matrix : Matrix
  /-- The tags that the style has been derived from, that of the element itself first.  Behind the
  ancestors of what a use refers to stand the use and its own ancestors. -/
  path : List Xml.Tag

namespace Stage

/-- The command of an occurrence, if there is one. -/
def command? (stage : Stage) (o : Occurrence) : Option DrawCommand :=
  (stage.drawn? o.element o.style).map (⟨·, o.matrix⟩)

/-- What the drawing of a node comes to whose parent has the style `s` and the matrix `m`, `chain`
being the identifiers of the uses that it is drawn through and `path` the tags that its style is
derived from. -/
def occurrences (stage : Stage) (n : Xml.Node) (ancestors : List Xml.Tag) (s : Style) (m : Matrix)
    (chain : List String) (path : List Xml.Tag) : List Occurrence :=
  match n with
  | .text _ => []
  | .element tag children =>
    if (aside? tag).isSome then []
    else
      match stage.entered? tag s with
      | none => []
      | some (style, own) =>
        let matrix := m.mul own
        match ElementKind.ofTag tag with
        | .group =>
          children.flatMap fun c =>
            stage.occurrences c (tag :: ancestors) style matrix chain (tag :: path)
        | .switch =>
          match _h : children.find? isChoice with
          | none => []
          | some c => stage.occurrences c (tag :: ancestors) style matrix chain (tag :: path)
        | .use =>
          match _h : stage.expansion tag ancestors style chain with
          | .error _ => []
          | .ok x =>
            let moved := matrix.mul (.translate x.x x.y)
            if x.target.name = "symbol" then
              match stage.entered? x.target.tag style with
              | none => []
              | some (inner, own) =>
                x.target.children.flatMap fun c =>
                  stage.occurrences c (x.target.tag :: x.ancestors) inner
                    (moved.mul (own.mul (symbolFit x.target.tag x.width x.height)))
                    (x.id :: chain) (x.target.tag :: tag :: path)
            else
              stage.occurrences x.target.node x.ancestors style moved (x.id :: chain) (tag :: path)
        | _ => [⟨⟨tag, children⟩, style, matrix, tag :: path⟩]
termination_by (stage.reuseLimit - chain.length, n)
decreasing_by
  case _ hc =>
    have := List.sizeOf_lt_of_mem hc
    exact Prod.Lex.right _ (by simp only [Xml.Node.element.sizeOf_spec]; omega)
  case _ =>
    have := List.sizeOf_lt_of_mem (List.mem_of_find?_eq_some _h)
    exact Prod.Lex.right _ (by simp only [Xml.Node.element.sizeOf_spec]; omega)
  all_goals
    have := length_lt_of_expansion _h
    exact Prod.Lex.left _ _ (by simp only [List.length_cons]; omega)

variable (stage : Stage)

/-- What the drawing of an element comes to, without the proofs that the recursion ends. -/
lemma occurrences_element (tag : Xml.Tag) (children : List Xml.Node) (ancestors : List Xml.Tag)
    (s : Style) (m : Matrix) (chain : List String) (path : List Xml.Tag) :
    stage.occurrences (.element tag children) ancestors s m chain path =
      if (aside? tag).isSome then []
      else
        match stage.entered? tag s with
        | none => []
        | some (style, own) =>
          match ElementKind.ofTag tag with
          | .group =>
            children.flatMap fun c =>
              stage.occurrences c (tag :: ancestors) style (m.mul own) chain (tag :: path)
          | .switch =>
            match children.find? isChoice with
            | none => []
            | some c => stage.occurrences c (tag :: ancestors) style (m.mul own) chain (tag :: path)
          | .use =>
            match stage.expansion tag ancestors style chain with
            | .error _ => []
            | .ok x =>
              if x.target.name = "symbol" then
                match stage.entered? x.target.tag style with
                | none => []
                | some (inner, own') =>
                  x.target.children.flatMap fun c =>
                    stage.occurrences c (x.target.tag :: x.ancestors) inner
                      (((m.mul own).mul (.translate x.x x.y)).mul
                        (own'.mul (symbolFit x.target.tag x.width x.height))) (x.id :: chain)
                      (x.target.tag :: tag :: path)
              else
                stage.occurrences x.target.node x.ancestors style
                  ((m.mul own).mul (.translate x.x x.y)) (x.id :: chain) (tag :: path)
          | _ => [⟨⟨tag, children⟩, style, m.mul own, tag :: path⟩] := by
  rw [occurrences]
  split_ifs
  · rfl
  · cases stage.entered? tag s with
    | none => rfl
    | some entered =>
      dsimp only
      cases ElementKind.ofTag tag with
      | switch =>
        dsimp only
        split
        · rename_i hfind
          rw [hfind]
        · rename_i hfind
          rw [hfind]
      | use =>
        dsimp only
        split
        · rename_i hx
          rw [hx]
        · rename_i hx
          simp only [hx]
      | group | shape | text | image | definition | unsupported | ignored | unknown => rfl

/-! ## What occurrences draw -/

/-- What a node contributes is what its occurrences draw. -/
theorem contribution_eq (n : Xml.Node) (ancestors : List Xml.Tag) (s : Style) (m : Matrix)
    (chain : List String) (path : List Xml.Tag) :
    stage.contribution n ancestors s m chain =
      (stage.occurrences n ancestors s m chain path).filterMap stage.command? := by
  fun_induction occurrences stage n ancestors s m chain path with
  | case1 =>
    rw [contribution]
    rfl
  | case2 ancestors s m chain path tag children haside =>
    rw [contribution, if_pos haside]
    rfl
  | case3 ancestors s m chain path tag children haside hentered =>
    rw [contribution, if_neg haside, hentered]
    rfl
  | case4 ancestors s m chain path tag children haside style own hentered matrix hkind ih =>
    rw [contribution_element, if_neg haside, List.filterMap_flatMap]
    simp only [hentered, hkind]
    exact List.flatMap_congr ih
  | case5 ancestors s m chain path tag children haside style own hentered hkind hfind =>
    rw [contribution_element, if_neg haside]
    simp only [hentered, hkind, hfind]
    rfl
  | case6 ancestors s m chain path tag children haside style own hentered matrix hkind c hfind ih =>
    rw [contribution_element, if_neg haside]
    simp only [hentered, hkind, hfind]
    exact ih
  | case7 ancestors s m chain path tag children haside style own hentered hkind e hx =>
    rw [contribution_element, if_neg haside]
    simp only [hentered, hkind, hx]
    rfl
  | case8 ancestors s m chain path tag children haside style own hentered hkind x hx hsymbol
      hnone =>
    rw [contribution_element, if_neg haside]
    simp only [hentered, hkind, hx, if_pos hsymbol, hnone]
    rfl
  | case9 ancestors s m chain path tag children haside style own hentered matrix hkind x hx moved
      hsymbol inner own' hinner ih =>
    rw [contribution_element, if_neg haside, List.filterMap_flatMap]
    simp only [hentered, hkind, hx, if_pos hsymbol, hinner]
    exact List.flatMap_congr fun c _ => ih c
  | case10 ancestors s m chain path tag children haside style own hentered matrix hkind x hx moved
      hsymbol ih =>
    rw [contribution_element, if_neg haside]
    simp only [hentered, hkind, hx, if_neg hsymbol]
    exact ih
  | case11 ancestors s m chain path tag children haside style own hentered matrix hgroup hswitch
      huse =>
    rw [contribution_element, if_neg haside]
    simp only [hentered]
    unfold command?
    rw [List.filterMap_cons]
    cases stage.drawn? ⟨tag, children⟩ style <;> rfl

end Stage

end SvgDisplayList
