import Mathlib.Order.Bounds.Defs
import SvgDisplayList.Gradient.Reader
import SvgDisplayList.Gradient.Resolution
import SvgDisplayList.Proofs.Gradient.Chain
import SvgDisplayList.Proofs.Style.Share

/-!
# The ramp of a gradient

A gradient has a stop for each of its stop elements, and the offset of a stop is the greatest one
that has been written up to there (`GradientStop.isRampOf_ramp`).  Stops are taken over as a whole:
a gradient with all that it takes over from its chain has the stops of the first gradient that has
any, and keeps its own name and kind (`Gradient.foldl_takeOver`).
-/

namespace SvgDisplayList

open Binary32

/-- The children of an element that give stops. -/
def Xml.Element.stopElements (e : Xml.Element) : List Xml.Element :=
  e.childElements.filter (·.name == "stop")

namespace GradientStop

variable {floor : Float32} {es : List Xml.Element} {e : Xml.Element} {tag : Xml.Tag}

/-- The offset that an element writes, held between nothing and all; nothing if it writes none that
can be read. -/
def written (e : Xml.Element) : Float32 :=
  ((e.tag.attribute? "offset").bind fun v => opacity? v.toList).getD 0

/-- A list of stops is the ramp of an element: each of its stop elements has made one, in their
order, and an offset is the greatest one that is written up to there. -/
structure IsRampOf (stops : List GradientStop) (e : Xml.Element) : Prop where
  made : List.Forall₂ (fun s c => ∃ floor, s = ofTag floor c.tag) stops e.stopElements
  greatest : ∀ i (h : i < stops.length),
    IsGreatest {o | o ∈ (e.stopElements.take (i + 1)).map written} stops[i].offset
  sorted : stops.Pairwise fun s s' => s.offset ≤ s'.offset
  shares : ∀ s ∈ stops, IsShare s.offset ∧ IsShare s.opacity

/-! ## One stop -/

/-- What is written is a share. -/
lemma isShare_written (e : Xml.Element) : IsShare (written e) := by
  refine getD_of_forall (fun v hv => ?_) ⟨by decide, by decide⟩
  obtain ⟨raw, -, hraw⟩ := Option.bind_eq_some_iff.mp hv
  exact isShare_opacity? hraw

/-- An offset is the greater of what is written and the offset of the stop before. -/
lemma offset_ofTag (floor : Float32) (e : Xml.Element) :
    (ofTag floor e.tag).offset = Binary32.max (written e) floor := rfl

/-- The first offset is what is written. -/
lemma offset_ofTag_zero (e : Xml.Element) : (ofTag 0 e.tag).offset = written e := by
  have hwritten := isShare_written e
  rw [offset_ofTag]
  unfold Binary32.max
  rw [if_neg (by rw [not_isNaN_right hwritten.1]; decide), if_neg (by decide),
    if_neg (not_lt_of_le hwritten.1)]

/-- The opacity of a stop is a share. -/
lemma isShare_opacity_ofTag (floor : Float32) (tag : Xml.Tag) :
    IsShare (ofTag floor tag).opacity := by
  refine .mul (getD_of_forall (fun v hv => ?_) isShare_one) ?_
  · obtain ⟨raw, -, hraw⟩ := Option.bind_eq_some_iff.mp hv
    exact isShare_opacity? hraw
  · refine getD_of_forall (p := fun c : AlphaColor => IsShare c.alpha) (fun v hv => ?_) isShare_one
    obtain ⟨raw, -, hraw⟩ := Option.bind_eq_some_iff.mp hv
    exact isShare_alpha hraw

/-! ## All stops -/

/-- Every element makes a stop. -/
lemma forall₂_ramp (floor : Float32) (es : List Xml.Element) :
    List.Forall₂ (fun s c => ∃ floor, s = ofTag floor c.tag) (ramp floor es) es := by
  induction es generalizing floor with
  | nil => exact .nil
  | cons e es ih => exact .cons ⟨floor, rfl⟩ (ih _)

/-- One number is the greatest of itself. -/
lemma isGreatest_singleton {o : Float32} (h : IsShare o) : IsGreatest {o' | o' ∈ [o]} o := by
  refine ⟨List.mem_singleton_self o, fun o' ho' => ?_⟩
  rw [List.mem_singleton.mp ho']
  exact le_self (not_isNaN_left h.2)

/-- In a list of shares, the greater of two stands for both of them. -/
lemma isGreatest_of_max {o o' x : Float32} {os : List Float32} (ho : IsShare o) (ho' : IsShare o')
    (h : IsGreatest {y | y ∈ Binary32.max o o' :: os} x) :
    IsGreatest {y | y ∈ o' :: o :: os} x := by
  obtain ⟨hmem, hupper⟩ := h
  have hmax : Binary32.max o o' ≤ x := hupper List.mem_cons_self
  have hleft : o ≤ Binary32.max o o' := le_max_left (not_isNaN_left ho.2)
  have hright : o' ≤ Binary32.max o o' := le_max_right (not_isNaN_left ho'.2)
  refine ⟨?_, fun y hy => ?_⟩
  · rcases List.mem_cons.mp hmem with rfl | hmem
    · rcases max_eq_or o o' with heq | heq <;> simp [heq]
    · exact List.mem_cons_of_mem _ (List.mem_cons_of_mem _ hmem)
  · rcases List.mem_cons.mp hy with rfl | hy
    · exact Binary32.le_trans hright hmax
    rcases List.mem_cons.mp hy with rfl | hy
    · exact Binary32.le_trans hleft hmax
    · exact hupper (List.mem_cons_of_mem _ hy)

/-- An offset is the greatest of the floor and of all that is written up to there. -/
lemma isGreatest_ramp_of_isShare (hfloor : IsShare floor) (i : Nat)
    (h : i < (ramp floor es).length) :
    IsGreatest {o | o ∈ floor :: (es.take (i + 1)).map written} (ramp floor es)[i].offset := by
  induction es generalizing floor i with
  | nil => cases h
  | cons e es ih =>
    have hwritten := isShare_written e
    -- the floor of the stops behind this one
    have hnext : IsShare (Binary32.max (written e) floor) := by
      rcases max_eq_or (written e) floor with heq | heq <;> rw [heq] <;> assumption
    cases i with
    | zero => exact isGreatest_of_max hwritten hfloor (isGreatest_singleton hnext)
    | succ i =>
      exact isGreatest_of_max hwritten hfloor (ih hnext i (Nat.lt_of_succ_lt_succ h))

/-- An offset is the greatest of all that is written up to there. -/
theorem isGreatest_ramp (es : List Xml.Element) (i : Nat) (h : i < (ramp 0 es).length) :
    IsGreatest {o | o ∈ (es.take (i + 1)).map written} (ramp 0 es)[i].offset := by
  cases es with
  | nil => cases h
  | cons e es =>
    have hramp : ramp 0 (e :: es) = ofTag 0 e.tag :: ramp (written e) es := by
      rw [← offset_ofTag_zero e]
      rfl
    simp only [hramp, List.length_cons] at h ⊢
    cases i with
    | zero =>
      change IsGreatest {o | o ∈ [written e]} (ofTag 0 e.tag).offset
      rw [offset_ofTag_zero]
      exact isGreatest_singleton (isShare_written e)
    | succ i => exact isGreatest_ramp_of_isShare (isShare_written e) i (Nat.lt_of_succ_lt_succ h)

/-- The stops of an element are its ramp. -/
theorem isRampOf_ramp (e : Xml.Element) : IsRampOf (ramp 0 e.stopElements) e where
  made := forall₂_ramp 0 _
  greatest := isGreatest_ramp _
  sorted := by
    rw [List.pairwise_iff_getElem]
    intro i j hi hj hlt
    -- what is written up to the one is written up to the other
    obtain ⟨c, hc, heq⟩ := List.mem_map.mp (isGreatest_ramp _ i hi).1
    have hprefix := List.take_subset_take_left _ (Nat.succ_le_succ hlt.le) hc
    exact (isGreatest_ramp _ j hj).2 (List.mem_map.mpr ⟨c, hprefix, heq⟩)
  shares := by
    intro s hs
    obtain ⟨i, hi, rfl⟩ := List.mem_iff_getElem.mp hs
    obtain ⟨floor, hmade⟩ := (forall₂_ramp 0 _).get hi ((forall₂_ramp 0 _).length_eq ▸ hi)
    obtain ⟨c, -, heq⟩ := List.mem_map.mp (isGreatest_ramp _ i hi).1
    refine ⟨heq ▸ isShare_written c, ?_⟩
    rw [List.get_eq_getElem] at hmade
    rw [hmade]
    exact isShare_opacity_ofTag _ _

end GradientStop

/-- Elements of a kind have its name. -/
lemma GradientKind.eq_elementName {name : String} {kind : GradientKind}
    (h : ofElementName? name = some kind) : name = kind.elementName := by
  unfold ofElementName? at h
  split_ifs at h with hlinear hradial
  · cases h
    exact hlinear
  · cases h
    exact hradial

/-- The geometry has no negative radius. -/
def GradientGeometry.IsSound : GradientGeometry → Prop
  | .linear .. => True
  | .radial _ radius _ => 0 ≤ radius

/-! ## Taking over stops -/

namespace Gradient

variable {g : Gradient} {gs : List Gradient}

/-- Whether there are stops. -/
def hasStops (g : Gradient) : Bool := !g.stops.isEmpty

/-- A gradient that takes over from others keeps its name and its kind, and has the stops of the
first one that has any. -/
theorem foldl_takeOver (g : Gradient) (gs : List Gradient) :
    (gs.foldl takeOver g).id = g.id ∧ (gs.foldl takeOver g).kind = g.kind ∧
      (gs.foldl takeOver g).stops = (((g :: gs).find? hasStops).map stops).getD [] := by
  induction gs generalizing g with
  | nil =>
    refine ⟨rfl, rfl, ?_⟩
    cases hstops : g.stops <;> simp [hasStops, hstops]
  | cons b bs ih =>
    obtain ⟨hid, hkind, hstops⟩ := ih (g.takeOver b)
    refine ⟨hid, hkind, hstops.trans ?_⟩
    cases hown : g.stops with
    | cons s ss => simp [hasStops, takeOver, hown]
    | nil =>
      have hother : (g.takeOver b).stops = b.stops := by simp [takeOver, hown]
      have hhas : (g.takeOver b).hasStops = b.hasStops := by rw [hasStops, hother, hasStops]
      have hnone : g.hasStops = false := by simp [hasStops, hown]
      rw [List.find?_cons, List.find?_cons, List.find?_cons, hhas, hnone]
      cases b.hasStops with
      | true => simp [hother]
      | false => rfl

/-- The gradients that a reference leads to are found by the look-up. -/
lemma Reaches.exists_lookup {lookup : String → Option Gradient} {passed : List String}
    {next : Option String} (h : Reaches lookup passed next gs) :
    ∀ g ∈ gs, ∃ id, lookup id = some g := by
  induction h with
  | done => simp
  | stop => simp
  | step _ found _ ih => exact List.forall_mem_cons.mpr ⟨⟨_, found⟩, ih⟩

/-- What an element makes has the kind and the name that it is read with, and the reference and the
ramp of the element. -/
lemma ofElement_eq_ok {kind : GradientKind} {id : String} {e : Xml.Element}
    (h : ofElement kind id e = .ok g) :
    g.kind = kind ∧ g.id = id ∧ g.reference? = e.tag.reference? ∧
      g.stops = GradientStop.ramp 0 e.stopElements := by
  unfold ofElement at h
  cases hattributes : GradientAttributes.ofTag e.tag with
  | error err =>
    rw [hattributes] at h
    cases h
  | ok attributes =>
    rw [hattributes] at h
    cases h
    exact ⟨rfl, rfl, rfl, rfl⟩

/-! ## Meeting an element -/

/-- A gradient that paints an element keeps its name and its stops, of which there are some; its
geometry is of its kind, and a radius is not negative. -/
theorem resolve?_eq_some {box? : Option Box} {sizes : ReferenceSizes} {r : ResolvedGradient}
    (h : g.resolve? box? sizes = some r) :
    r.id = g.id ∧ r.stops = g.stops ∧ g.stops ≠ [] ∧ r.kind = g.kind ∧ r.geometry.IsSound := by
  have hgeometry : r.id = g.id ∧ r.stops = g.stops ∧ g.stops ≠ [] ∧
      r.geometry = g.geometry sizes := by
    unfold resolve? at h
    dsimp only at h
    split_ifs at h with hnone
    rw [Bool.not_eq_true, List.isEmpty_eq_false_iff] at hnone
    split at h
    · cases h
      exact ⟨rfl, rfl, hnone, rfl⟩
    · split at h
      · cases h
      · split_ifs at h
        cases h
        exact ⟨rfl, rfl, hnone, rfl⟩
  obtain ⟨hid, hstops, hnone, hgeometry⟩ := hgeometry
  refine ⟨hid, hstops, hnone, ?_, ?_⟩
  · unfold ResolvedGradient.kind
    rw [hgeometry]
    unfold geometry
    cases g.kind <;> rfl
  · rw [hgeometry]
    unfold geometry
    cases g.kind with
    | linear => trivial
    | radial => exact le_max_right (by decide)

end Gradient

end SvgDisplayList
