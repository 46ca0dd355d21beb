import Mathlib.Tactic.Lemma
import Mathlib.Tactic.SplitIfs
import SvgDisplayList.Translation

/-!
# Drawings and the expansion of a use

Drawings form a monoid, and both of their parts are homomorphic images of it.  `Stage.enter` and
`Stage.use` are restated here without what they do in passing: `Stage.entered?` is the style and the
matrix that an element is drawn with, and `Stage.expansion` is all that a use decides before its
target is drawn.  It looks at the identifiers of the uses around the use and compares their number
with the limit, while `Stage.use` is told by its parameter whether another level is left.
-/

namespace SvgDisplayList

namespace Drawing

@[simp] theorem commands_empty : empty.commands = [] := rfl

@[simp] theorem diagnostics_empty : empty.diagnostics = [] := rfl

@[simp] theorem commands_append (a b : Drawing) :
    (a ++ b).commands = a.commands ++ b.commands := rfl

@[simp] theorem diagnostics_append (a b : Drawing) :
    (a ++ b).diagnostics = a.diagnostics ++ b.diagnostics := rfl

@[simp] theorem commands_reports (ds : List Diagnostic) : (reports ds).commands = [] := rfl

@[simp] theorem diagnostics_reports (ds : List Diagnostic) : (reports ds).diagnostics = ds := rfl

@[simp] theorem empty_append (d : Drawing) : empty ++ d = d := rfl

@[simp] theorem append_empty (d : Drawing) : d ++ empty = d := by
  change Drawing.mk (d.commands ++ []) (d.diagnostics ++ []) = d
  rw [List.append_nil, List.append_nil]

theorem append_assoc (a b c : Drawing) : a ++ b ++ c = a ++ (b ++ c) := by
  change Drawing.mk (a.commands ++ b.commands ++ c.commands)
    (a.diagnostics ++ b.diagnostics ++ c.diagnostics) = _
  rw [List.append_assoc, List.append_assoc]
  rfl

@[simp] theorem reports_nil : reports [] = empty := rfl

theorem reports_append (a b : List Diagnostic) : reports (a ++ b) = reports a ++ reports b := rfl

@[simp] theorem orFault_ok (tag : Xml.Tag) (d : Drawing) : orFault tag (.ok d) = d := rfl

@[simp] theorem orFault_error (tag : Xml.Tag) (e : ElementError) :
    orFault tag (.error e) = reports [fault tag e] := rfl

@[simp] theorem commands_single (tag : Xml.Tag) (m : Matrix) (d : Option Drawable)
    (es : List ElementError) :
    (single tag m d es).commands = d.toList.map (⟨·, m⟩) := by
  cases d <;> rfl

end Drawing

namespace Stage

variable (stage : Stage)

/-! ## Entering an element -/

/-- The style and the own matrix of an element whose parent has the style `s`; none if the element
is taken out of the drawing or its transform is faulty. -/
def entered? (tag : Xml.Tag) (s : Style) : Option (Style × Matrix) :=
  let d := Declarations.ofTag tag
  if d.displayNone then none
  else (localMatrix tag).toOption.map fun m => (s.derive d (stage.sizes initialFontSize), m)

/-- The reports that come with entering an element, whether it is drawn or not. -/
def entryReports (tag : Xml.Tag) : List Diagnostic :=
  let d := Declarations.ofTag tag
  if d.displayNone then []
  else
    match localMatrix tag with
    | .error e => unsupported tag d ++ [Drawing.fault tag e]
    | .ok _ => unsupported tag d

/-- An element that is entered is drawn behind its reports, one that is not is its reports. -/
theorem enter_eq (tag : Xml.Tag) (place : Place) (draw : Style → Matrix → Drawing) :
    stage.enter tag place draw = Drawing.reports (entryReports tag) ++
      match stage.entered? tag place.style with
      | none => .empty
      | some (style, m) => draw style m := by
  unfold enter entered? entryReports
  cases hd : (Declarations.ofTag tag).displayNone with
  | true => simp [hd]
  | false =>
    cases hm : localMatrix tag with
    | error e => simp [hd, Drawing.reports_append, Except.toOption]
    | ok m => simp [hd, Except.toOption]

/-! ## The expansion of a use -/

/-- What a use is replaced by: the element of its reference, moved, with the size that the use gives
it. -/
structure Expansion where
  id : String
  target : Xml.Element
  /-- The ancestors of the target, nearest first. -/
  ancestors : List Xml.Tag
  x : Float32
  y : Float32
  width : Option Float32
  height : Option Float32

/-- The lengths of a use, in the order in which they are read. -/
def useLengths (tag : Xml.Tag) (sizes : ReferenceSizes) :
    Except ElementError (Float32 × Float32 × Option Float32 × Option Float32) := do
  let x ← tag.length "x" .horizontal sizes
  let y ← tag.length "y" .vertical sizes
  let width ← tag.length? "width" .horizontal sizes
  let height ← tag.length? "height" .vertical sizes
  return (x, y, width, height)

/-- What a use of its own style is replaced by, `chain` being the identifiers of the uses that it is
drawn through.  The target must exist and stand neither in the chain nor around the use, the chain
must be shorter than the limit, and the lengths of the use must be readable. -/
def expansion (tag : Xml.Tag) (ancestors : List Xml.Tag) (style : Style) (chain : List String) :
    Except ElementError Expansion :=
  match tag.reference? with
  | none => .error (.missingAttribute "href")
  | some id =>
    match stage.registry.element? id with
    | none => .error (.unresolvedReference id)
    | some (target, targetAncestors) =>
      if chain.contains id || (tag :: ancestors).any (·.order == target.tag.order) then
        .error (.referenceCycle id)
      else if stage.reuseLimit ≤ chain.length then .error (.reuseTooDeep stage.reuseLimit)
      else
        (useLengths tag (stage.sizes style.fontSize)).map fun (x, y, width, height) =>
          ⟨id, target, targetAncestors, x, y, width, height⟩

namespace Expansion

/-- Where the target is drawn. -/
def place (x : Expansion) (p : Place) : Place :=
  { p with chain := x.id :: p.chain }.moved (.translate x.x x.y)

end Expansion

variable {stage} {tag : Xml.Tag} {ancestors : List Xml.Tag} {style : Style} {chain : List String}
    {x : Expansion}

/-- Whether a reference leads back to a use: its identifier is in the chain, or its target stands
around the use. -/
def LeadsBack (tag : Xml.Tag) (ancestors : List Xml.Tag) (chain : List String) (id : String)
    (target : Xml.Tag) : Prop :=
  id ∈ chain ∨ ∃ a ∈ tag :: ancestors, a.order = target.order

/-- The test of a use finds out whether its reference leads back. -/
lemma leadsBack_iff {id : String} {target : Xml.Tag} :
    (chain.contains id || (tag :: ancestors).any (·.order == target.order)) = true ↔
      LeadsBack tag ancestors chain id target := by
  unfold LeadsBack
  simp only [Bool.or_eq_true, List.contains_eq_mem, decide_eq_true_eq, List.any_eq_true, beq_iff_eq]

/-- The lengths of an expansion are those of the use, and its target is what the use refers to. -/
theorem expansion_eq_ok_iff :
    stage.expansion tag ancestors style chain = .ok x ↔
      tag.reference? = some x.id ∧ stage.registry.element? x.id = some (x.target, x.ancestors) ∧
        ¬ LeadsBack tag ancestors chain x.id x.target.tag ∧ chain.length < stage.reuseLimit ∧
        useLengths tag (stage.sizes style.fontSize) = .ok (x.x, x.y, x.width, x.height) := by
  unfold expansion
  constructor
  · intro h
    split at h
    · simp at h
    · rename_i id hid
      split at h
      · simp at h
      · rename_i target targetAncestors ht
        split_ifs at h with hcycle hdeep
        cases hl : useLengths tag (stage.sizes style.fontSize) with
        | error e => rw [hl] at h; simp [Except.map] at h
        | ok v =>
          rw [hl] at h
          obtain rfl := Except.ok.inj h
          exact ⟨hid, ht, mt leadsBack_iff.mpr hcycle, by omega, rfl⟩
  · rintro ⟨hid, ht, hback, hdeep, hl⟩
    simp only [hid, ht, if_neg (mt leadsBack_iff.mp hback), if_neg (Nat.not_le.mpr hdeep), hl]
    rfl

/-- A use that is expanded has a level left. -/
theorem length_lt_of_expansion (h : stage.expansion tag ancestors style chain = .ok x) :
    chain.length < stage.reuseLimit :=
  (expansion_eq_ok_iff.mp h).2.2.2.1

variable (stage)

/-- What a use draws: its expansion decides, given that a level is left exactly if the chain is
shorter than the limit. -/
theorem use_eq_expansion (reuse? : Option Reuse) (tag : Xml.Tag) (ancestors : List Xml.Tag)
    (place : Place) (hlevel : reuse?.isSome ↔ place.chain.length < stage.reuseLimit) :
    stage.use reuse? tag ancestors place =
      (stage.expansion tag ancestors place.style place.chain).map fun x =>
        (reuse?.map fun reuse =>
          reuse x.target x.ancestors (x.place place) x.width x.height).getD .empty := by
  unfold use expansion
  cases hid : tag.reference? with
  | none => rfl
  | some id =>
    dsimp only
    cases ht : stage.registry.element? id with
    | none => rfl
    | some target =>
      dsimp only
      split_ifs with hcycle hdeep
      · rfl
      · cases reuse? with
        | none => rfl
        | some reuse => exact absurd (hlevel.mp rfl) (Nat.not_lt.mpr hdeep)
      · cases reuse? with
        | none => exact absurd (hlevel.mpr (Nat.lt_of_not_le hdeep)) (by simp)
        | some reuse =>
          unfold useLengths
          -- both sides stop at the first length that cannot be read
          cases tag.length "x" .horizontal (stage.sizes place.style.fontSize) with
          | error e => rfl
          | ok x =>
            cases tag.length "y" .vertical (stage.sizes place.style.fontSize) with
            | error e => rfl
            | ok y =>
              cases tag.length? "width" .horizontal (stage.sizes place.style.fontSize) with
              | error e => rfl
              | ok width =>
                cases tag.length? "height" .vertical (stage.sizes place.style.fontSize) with
                | error e => rfl
                | ok height => rfl

/-! ## Nodes -/

/-- What an element leaves behind that is not drawn where it stands; none for one that is. -/
def aside? (tag : Xml.Tag) : Option Drawing :=
  match ElementKind.ofTag tag with
  | .ignored | .definition => some .empty
  | .unsupported => some (.reports [.unsupportedFeature tag.name tag.name])
  | .unknown => some (.reports [Drawing.fault tag (.unsupportedElement tag.name)])
  | _ => none

/-- Whether a node is an element that a switch may choose. -/
def isChoice : Xml.Node → Bool
  | .element tag _ => isCandidate tag
  | .text _ => false

/-- What an element draws that has been entered. -/
def content (reuse? : Option Reuse) (e : Xml.Element) (ancestors : List Xml.Tag) (place : Place) :
    Drawing :=
  match ElementKind.ofTag e.tag with
  | .group => stage.nodes reuse? e.children (e.tag :: ancestors) place
  | .switch => stage.firstNode reuse? e.children (e.tag :: ancestors) place
  | .shape s => .orFault e.tag (stage.shape s e.tag place)
  | .text => .orFault e.tag (stage.text e place)
  | .image => .orFault e.tag (stage.image e.tag place)
  | .use => .orFault e.tag (stage.use reuse? e.tag ancestors place)
  | _ => .empty

/-- An element that is drawn where it stands is its reports and, if it is entered, its content. -/
theorem node_element (reuse? : Option Reuse) (tag : Xml.Tag) (children : List Xml.Node)
    (ancestors : List Xml.Tag) (place : Place) :
    stage.node reuse? (.element tag children) ancestors place =
      (aside? tag).getD (Drawing.reports (entryReports tag) ++
        match stage.entered? tag place.style with
        | none => .empty
        | some (style, m) =>
          stage.content reuse? ⟨tag, children⟩ ancestors ({ place with style }.moved m)) := by
  rw [node]
  unfold aside? content
  cases ElementKind.ofTag tag <;> first | rfl | simp only [enter_eq, Option.getD_none]

/-- A list of nodes is drawn node by node. -/
lemma nodes_cons (reuse? : Option Reuse) (n : Xml.Node) (ns : List Xml.Node)
    (ancestors : List Xml.Tag) (place : Place) :
    stage.nodes reuse? (n :: ns) ancestors place =
      stage.node reuse? n ancestors place ++ stage.nodes reuse? ns ancestors place := by
  rw [nodes]

/-- A switch draws its first choice. -/
lemma firstNode_eq (reuse? : Option Reuse) (ns : List Xml.Node) (ancestors : List Xml.Tag)
    (place : Place) :
    stage.firstNode reuse? ns ancestors place =
      match ns.find? isChoice with
      | some n => stage.node reuse? n ancestors place
      | none => .empty := by
  induction ns with
  | nil => rw [firstNode]; rfl
  | cons n ns ih =>
    cases n with
    | text s => rw [firstNode, ih]; rfl
    | element tag children =>
      rw [firstNode]
      cases h : isCandidate tag with
      | true => simp [isChoice, h]
      | false => simp [isChoice, h, ih]

end Stage

end SvgDisplayList
