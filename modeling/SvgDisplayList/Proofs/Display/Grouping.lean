import SvgDisplayList.Proofs.Display.Visibility
import SvgDisplayList.Proofs.Geometry.Composition

/-!
# Transforms of groups

Where the drawing comes to an element through groups alone, the element has the product of the
transforms along the way as its matrix, the outermost one first (`Stage.exists_comesThrough`).  So
the matrix of a command maps points as the transforms do one after the other, from the inside to the
outside, as far as products are composites: for one group around the element and entries that are
small integers they are so exactly (`Settings.transforms_compose`).
-/

namespace SvgDisplayList

/-! ## The product of the transforms along a path -/

/-- The map that an element gives its coordinates; a faulty one counts as none. -/
def Xml.Tag.ownMatrix (tag : Xml.Tag) : Matrix := (Stage.localMatrix tag).toOption.getD .identity

/-- A matrix multiplied by the maps of elements that stand in each other, the innermost one first in
the list and last in the product. -/
def nestedMatrix (m : Matrix) : List Xml.Tag → Matrix
  | [] => m
  | tag :: tags => (nestedMatrix m tags).mul tag.ownMatrix

/-- The outermost map is the first one. -/
lemma nestedMatrix_concat (m : Matrix) (tags : List Xml.Tag) (tag : Xml.Tag) :
    nestedMatrix m (tags ++ [tag]) = nestedMatrix (m.mul tag.ownMatrix) tags := by
  induction tags with
  | nil => rfl
  | cons t tags ih =>
    rw [List.cons_append, nestedMatrix, ih]
    rfl

namespace Stage

variable {stage : Stage}

/-- An element that is entered has its own map. -/
lemma own_eq_of_entered? {tag : Xml.Tag} {s style : Style} {own : Matrix}
    (h : stage.entered? tag s = some (style, own)) : own = tag.ownMatrix := by
  unfold entered? at h
  dsimp only at h
  split_ifs at h
  obtain ⟨m, hm, heq⟩ := Option.map_eq_some_iff.mp h
  unfold Xml.Tag.ownMatrix
  rw [hm]
  exact (Prod.mk.inj heq).2.symm

/-- The part of the path of an occurrence that lies below a given one.  If the drawing has come
through it by groups alone, the matrix is the product along it. -/
structure ComesThrough (o : Occurrence) (m : Matrix) (path front : List Xml.Tag) : Prop where
  path_eq : o.path = front ++ path
  front_ne : front ≠ []
  matrix_eq : (∀ tag ∈ front.tail, ElementKind.ofTag tag = .group) → o.matrix = nestedMatrix m front

namespace ComesThrough

variable {o : Occurrence} {m : Matrix} {path front : List Xml.Tag} {tag : Xml.Tag}

/-- An occurrence below a group. -/
lemma ofGroup (h : ComesThrough o (m.mul tag.ownMatrix) (tag :: path) front) :
    ComesThrough o m path (front ++ [tag]) where
  path_eq := by rw [h.path_eq, List.append_assoc, List.singleton_append]
  front_ne := by simp
  matrix_eq hgroups := by
    rw [nestedMatrix_concat]
    refine h.matrix_eq fun t ht => hgroups t ?_
    rw [List.tail_append_of_ne_nil h.front_ne]
    exact List.mem_append_left _ ht

/-- An occurrence below an element that is no group. -/
lemma ofOther {m' : Matrix} (above : List Xml.Tag)
    (h : ComesThrough o m' (above ++ tag :: path) front) (hkind : ElementKind.ofTag tag ≠ .group) :
    ComesThrough o m path (front ++ (above ++ [tag])) where
  path_eq := by
    rw [h.path_eq, List.append_assoc, List.append_assoc, List.singleton_append]
  front_ne := by simp
  matrix_eq hgroups := by
    refine absurd (hgroups tag ?_) hkind
    rw [List.tail_append_of_ne_nil h.front_ne]
    simp

end ComesThrough

/-- Every occurrence lies below the path that the drawing started with. -/
theorem exists_comesThrough {n : Xml.Node} {ancestors : List Xml.Tag} {s : Style} {m : Matrix}
    {chain : List String} {path : List Xml.Tag} {o : Occurrence}
    (h : o ∈ stage.occurrences n ancestors s m chain path) :
    ∃ front, ComesThrough o m path front := by
  fun_induction occurrences stage n ancestors s m chain path with
  | case1 | case2 | case3 | case5 | case7 | case8 => cases h
  | case4 ancestors s m chain path tag children haside style own hentered matrix hkind ih =>
    obtain ⟨c, hc, ho⟩ := List.mem_flatMap.mp h
    obtain ⟨front, hfront⟩ := ih c hc ho
    have hmatrix : matrix = m.mul tag.ownMatrix := by rw [← own_eq_of_entered? hentered]
    exact ⟨_, (hmatrix ▸ hfront).ofGroup⟩
  | case6 ancestors s m chain path tag children haside style own hentered matrix hkind c hfind ih =>
    obtain ⟨front, hfront⟩ := ih h
    exact ⟨_, ComesThrough.ofOther [] hfront (by rw [hkind]; decide)⟩
  | case9 ancestors s m chain path tag children haside style own hentered matrix hkind x hx moved
      hsymbol inner own' hinner ih =>
    obtain ⟨c, hc, ho⟩ := List.mem_flatMap.mp h
    obtain ⟨front, hfront⟩ := ih c ho
    exact ⟨_, ComesThrough.ofOther [x.target.tag] hfront (by rw [hkind]; decide)⟩
  | case10 ancestors s m chain path tag children haside style own hentered matrix hkind x hx moved
      hsymbol ih =>
    obtain ⟨front, hfront⟩ := ih h
    exact ⟨_, ComesThrough.ofOther [] hfront (by rw [hkind]; decide)⟩
  | case11 ancestors s m chain path tag children haside style own hentered matrix hgroup hswitch
      huse =>
    obtain rfl := List.mem_singleton.mp h
    refine ⟨[tag], rfl, by simp, fun _ => ?_⟩
    change m.mul own = m.mul tag.ownMatrix
    rw [own_eq_of_entered? hentered]

/-- An occurrence in a single group has the transforms of the group and its own. -/
lemma matrix_eq_of_path {n : Xml.Node} {ancestors : List Xml.Tag} {s : Style} {m : Matrix}
    {chain : List String} {path : List Xml.Tag} {o : Occurrence}
    (h : o ∈ stage.occurrences n ancestors s m chain path) {tag group : Xml.Tag}
    (hpath : o.path = tag :: group :: path) (hgroup : ElementKind.ofTag group = .group) :
    o.matrix = (m.mul group.ownMatrix).mul tag.ownMatrix := by
  obtain ⟨front, hfront⟩ := exists_comesThrough h
  obtain rfl : [tag, group] = front :=
    List.append_cancel_right (hpath.symm.trans hfront.path_eq)
  exact hfront.matrix_eq fun t ht => by rwa [List.mem_singleton.mp ht]

end Stage

/-! ## Small transforms below an identity -/

namespace Matrix

/-- A matrix that counts as the identity holds the entries of the identity. -/
lemma holds_of_isIdentity {m : Matrix} (h : m.isIdentity = true) : m.Holds .identity := by
  change (m.a == 1 && (m.b == 0 && (m.c == 0 && (m.d == 1 && (m.e == 0 && m.f == 0))))) = true at h
  simp only [Bool.and_eq_true] at h
  obtain ⟨ha, hb, hc, hd, he, hf⟩ := h
  exact ⟨.of_beq ha holds_identity.a, .of_beq hb holds_identity.b,
    .of_beq hc holds_identity.c, .of_beq hd holds_identity.d,
    .of_beq he holds_identity.e, .of_beq hf holds_identity.f⟩

variable {root outer inner : Matrix} {p : Point}

/-- Below an identity, one small map in another maps small points as they do one after the other. -/
theorem apply_nested (hroot : root.isIdentity = true) (houter : outer.IsSmall)
    (hinner : inner.IsSmall) (hp : p.IsSmall) :
    ((((identity.mul root).mul outer).mul inner).apply p ==
      outer.apply (inner.apply p)) = true := by
  obtain ⟨k, hk, hkle⟩ := houter.exists_holds
  obtain ⟨k', hk', hkle'⟩ := hinner.exists_holds
  obtain ⟨q, hq, hx, hy⟩ := hp.exists_holds
  have hone := (holds_identity.mul (holds_of_isIdentity hroot) WholeMatrix.within_identity
    WholeMatrix.within_identity (by decide) (by decide)).1
  rw [WholeMatrix.identity_mul] at hone
  have houter' := (hone.mul hk WholeMatrix.within_identity hkle (by decide) (by decide)).1
  rw [WholeMatrix.identity_mul] at houter'
  obtain ⟨hboth, hbothLe⟩ := houter'.mul hk' hkle hkle' (by decide) (by decide)
  obtain ⟨himage, himageX, himageY⟩ := hk'.apply hq hkle' hx hy (by decide)
  have hleft := (hboth.apply hq hbothLe hx hy (by decide)).1
  have hright := (hk.apply himage hkle himageX himageY (by decide)).1
  rw [WholeMatrix.apply_mul] at hleft
  exact hleft.beq hright

end Matrix

namespace Settings

/-- For matrices and points whose entries are integers of magnitude at most 128, images are computed
without rounding, a product maps points as its factors do one after the other, products are
associative, and the identity is neutral.  So, if the root element has the identity as its matrix,
every command of an element in a single group maps such points exactly where first the transform of
the element and then that of the group maps them, provided that the transforms have such entries. -/
theorem transforms_compose :
    (∀ (l m n : Matrix) (p : Point), l.IsSmall → m.IsSmall → n.IsSmall → p.IsSmall →
      m.Takes p (m.apply p) ∧
        ((m.mul n).apply p == m.apply (n.apply p)) = true ∧
        ((l.mul m).mul n == l.mul (m.mul n)) = true ∧
        (Matrix.identity.mul m == m) = true ∧ (m.mul .identity == m) = true) ∧
    ∀ (settings : Settings) (document : Xml.Document) (raised : Bool),
      (∀ text, Xml.Document.read text = .ok document →
        settings.translateWith text raised = settings.translateTree document raised) ∧
      ∀ t signal, settings.translateTree document raised = (.ok t, signal) →
        (Frame.ofRoot settings document.root.tag).matrix.isIdentity = true →
        t.drawing.commands = (if settings.definitionsOnly then [] else
          document.root.children.flatMap fun n =>
            (settings.occurrences document.root n).filterMap
              (settings.stage document.root).command?) ∧
        ∀ n ∈ document.root.children, ∀ o ∈ settings.occurrences document.root n,
          ∀ c, (settings.stage document.root).command? o = some c →
          ∀ group, o.path = [o.element.tag, group, document.root.tag] →
            ElementKind.ofTag group = .group →
          ∀ outer inner, Stage.localMatrix group = .ok outer →
            Stage.localMatrix o.element.tag = .ok inner → outer.IsSmall → inner.IsSmall →
          ∀ p : Point, p.IsSmall →
            (c.matrix.apply p == outer.apply (inner.apply p)) = true := by
  refine ⟨fun l m n p hl hm hn hp => ?_, fun settings document raised => ?_⟩
  · exact ⟨Matrix.takes_of_isSmall hm hp, Matrix.apply_mul_of_isSmall hm hn hp,
      Matrix.mul_assoc_of_isSmall hl hm hn, Matrix.identity_neutral_of_isSmall hm⟩
  · refine ⟨fun _ => settings.translateWith_of_read raised, fun t signal h hroot => ⟨?_, ?_⟩⟩
    · simp only [commands_eq_flatMap h, settings.commands_draw]
    · intro n _ o ho c hc group hpath hgroup outer inner houter hinner houterSmall hinnerSmall p hp
      obtain ⟨d, -, rfl⟩ := Option.map_eq_some_iff.mp hc
      have hmatrix := Stage.matrix_eq_of_path ho hpath hgroup
      have houterOwn : group.ownMatrix = outer := by rw [Xml.Tag.ownMatrix, houter]; rfl
      have hinnerOwn : o.element.tag.ownMatrix = inner := by rw [Xml.Tag.ownMatrix, hinner]; rfl
      rw [houterOwn, hinnerOwn] at hmatrix
      change (o.matrix.apply p == _) = true
      rw [hmatrix]
      exact Matrix.apply_nested hroot houterSmall hinnerSmall hp

end Settings

/-! ## A rectangle in a group -/

/-- A quarter turn with a shift. -/
def Matrix.turn : Matrix := ⟨0, 1, -1, 0, 5, 6⟩

/-- An enlargement with a shift. -/
def Matrix.enlargement : Matrix := ⟨2, 0, 0, 2, 7, -8⟩

/-- A group that is turned. -/
def Xml.Tag.turned : Tag := ⟨1, none, "g", [⟨none, "transform", "matrix(0 1 -1 0 5 6)"⟩]⟩

/-- A rectangle that is enlarged. -/
def Xml.Tag.enlarged : Tag :=
  ⟨2, none, "rect", [⟨none, "width", "1"⟩, ⟨none, "height", "1"⟩,
    ⟨none, "transform", "translate(7,-8) scale(2)"⟩]⟩

/-- The text of this rectangle in this group. -/
def Xml.turnedGroup : String :=
  "<svg><g transform=\"matrix(0 1 -1 0 5 6)\">" ++
    "<rect width=\"1\" height=\"1\" transform=\"translate(7,-8) scale(2)\"/></g></svg>"

/-- The tree of this text. -/
def Xml.Document.turnedGroup : Xml.Document where
  root := ⟨⟨0, none, "svg", []⟩, [.element .turned [.element .enlarged []]]⟩
  beside := []

/-- The turn and the enlargement have small entries. -/
lemma Matrix.isSmall_turn_enlargement : turn.IsSmall ∧ enlargement.IsSmall := by
  have hzero : Binary32.IsSmallInteger 0 := ⟨by decide, 0, by decide, by decide +kernel⟩
  have htwo : Binary32.IsSmallInteger 2 := ⟨by decide, 2, by decide, by decide +kernel⟩
  exact ⟨⟨hzero, ⟨by decide, 1, by decide, by decide +kernel⟩,
      ⟨by decide, -1, by decide, by decide +kernel⟩, hzero,
      ⟨by decide, 5, by decide, by decide +kernel⟩, ⟨by decide, 6, by decide, by decide +kernel⟩⟩,
    ⟨htwo, hzero, hzero, htwo, ⟨by decide, 7, by decide, by decide +kernel⟩,
      ⟨by decide, -8, by decide, by decide +kernel⟩⟩⟩

namespace Stage

/-- An element has a map as its own if its transform is read as the entries of the map. -/
lemma localMatrix_eq_ok {tag : Xml.Tag} {m : Matrix}
    (h : (localMatrix tag).toOption.map (fun k => (k.a, k.b, k.c, k.d, k.e, k.f)) =
      some (m.a, m.b, m.c, m.d, m.e, m.f)) : localMatrix tag = .ok m := by
  cases hlocal : localMatrix tag with
  | error e =>
    rw [hlocal] at h
    cases h
  | ok k =>
    rw [hlocal] at h
    cases k
    cases m
    cases h
    rfl

/-- The transforms of the group and of the rectangle. -/
lemma localMatrix_turned_enlarged :
    localMatrix .turned = .ok .turn ∧ localMatrix .enlarged = .ok .enlargement :=
  ⟨localMatrix_eq_ok (by decide +kernel), localMatrix_eq_ok (by decide +kernel)⟩

end Stage

namespace Settings

set_option maxRecDepth 20000 in
/-- The drawing comes to the rectangle and to nothing else. -/
lemma path_of_mem_occurrences_turnedGroup {n : Xml.Node}
    (hn : n ∈ Xml.Document.turnedGroup.root.children) {o : Occurrence}
    (ho : o ∈ initial.occurrences Xml.Document.turnedGroup.root n) :
    o.element.tag = .enlarged ∧
      o.path = [.enlarged, .turned, Xml.Document.turnedGroup.root.tag] := by
  obtain ⟨hturned, henlarged⟩ := Stage.localMatrix_turned_enlarged
  have hgroup (stage : Stage) (s : Style) :
      ∃ style, stage.entered? .turned s = some (style, .turn) := by
    unfold Stage.entered?
    rw [hturned]
    exact ⟨_, rfl⟩
  have hrect (stage : Stage) (s : Style) :
      ∃ style, stage.entered? .enlarged s = some (style, .enlargement) := by
    unfold Stage.entered?
    rw [henlarged]
    exact ⟨_, rfl⟩
  have hgroupKind : ElementKind.ofTag .turned = .group := rfl
  have hrectKind : ElementKind.ofTag .enlarged = .shape .rect := rfl
  obtain rfl := List.mem_singleton.mp hn
  unfold occurrences at ho
  obtain ⟨style, hstyle⟩ := hgroup (initial.stage Xml.Document.turnedGroup.root)
    (initial.rootPlace Xml.Document.turnedGroup.root).style
  rw [Stage.occurrences_element, if_neg (by decide), hstyle] at ho
  dsimp only at ho
  rw [hgroupKind] at ho
  obtain ⟨c, hc, ho⟩ := List.mem_flatMap.mp ho
  obtain rfl := List.mem_singleton.mp hc
  obtain ⟨style', hstyle'⟩ := hrect (initial.stage Xml.Document.turnedGroup.root) style
  rw [Stage.occurrences_element, if_neg (by decide), hstyle'] at ho
  dsimp only at ho
  rw [hrectKind] at ho
  obtain rfl := List.mem_singleton.mp ho
  exact ⟨rfl, rfl⟩

set_option maxRecDepth 20000 in
/-- The command of the rectangle maps a point as the enlargement and then the turn do. -/
theorem transforms_compose_turnedGroup :
    let p : Point := ⟨3, -4⟩
    Matrix.turn.IsSmall ∧ Matrix.enlargement.IsSmall ∧ p.IsSmall ∧
      Matrix.turn.Takes p (Matrix.turn.apply p) ∧
      ((Matrix.turn.mul .enlargement).apply p ==
        Matrix.turn.apply (Matrix.enlargement.apply p)) = true ∧
      ∃ t, initial.translateWith Xml.turnedGroup false = (.ok t, false) ∧
        t.drawing.commands.length = 1 ∧ ∀ c ∈ t.drawing.commands,
          (c.matrix.apply p == Matrix.turn.apply (Matrix.enlargement.apply p)) = true := by
  intro p
  obtain ⟨hturn, henlargement⟩ := Matrix.isSmall_turn_enlargement
  have hp : p.IsSmall := ⟨⟨by decide, 3, by decide, by decide +kernel⟩,
    ⟨by decide, -4, by decide, by decide +kernel⟩⟩
  obtain ⟨hturned, henlarged⟩ := Stage.localMatrix_turned_enlarged
  obtain ⟨hproducts, hdocuments⟩ := transforms_compose
  have hread : Xml.Document.read Xml.turnedGroup = .ok .turnedGroup := rfl
  obtain ⟨t, ht⟩ := initial.translateTree_ok .turnedGroup rfl fun _ => rfl
  obtain ⟨htext, htree⟩ := hdocuments initial .turnedGroup false
  obtain ⟨hcommands, hmaps⟩ := htree t false ht (by decide +kernel)
  refine ⟨hturn, henlargement, hp,
    (hproducts .turn .turn .enlargement p hturn hturn henlargement hp).1,
    (hproducts .turn .turn .enlargement p hturn hturn henlargement hp).2.1,
    t, (htext _ hread).trans ht, ?_, fun c hc => ?_⟩
  · rw [initial.commands_eq rfl ht]
    decide +kernel
  · rw [hcommands, if_neg (by decide)] at hc
    obtain ⟨n, hn, hc⟩ := List.mem_flatMap.mp hc
    obtain ⟨o, ho, hc⟩ := List.mem_filterMap.mp hc
    obtain ⟨htag, hpath⟩ := path_of_mem_occurrences_turnedGroup hn ho
    exact hmaps n hn o ho c hc .turned (htag ▸ hpath) rfl .turn .enlargement hturned
      (htag ▸ henlarged) hturn henlargement p hp

end Settings

end SvgDisplayList
