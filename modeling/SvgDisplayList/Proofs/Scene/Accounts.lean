import Mathlib.Data.Finset.Card
import SvgDisplayList.Proofs.Gradient.Ramp
import SvgDisplayList.Proofs.Scene.Collecting

/-!
# The accounts of the registry

Elements are collected if they have an identifier and are no gradients that cannot be read
(`Collection.collected`).  Their number, that of their identifiers and that of the replacements
among them have to agree with what the registry counts and with what is reported
(`Registry.accounts_balance`).  The registry counts its definitions when all gradients have
inherited, and its replacements while it collects; `Collection.Accounted` is what both have in
common with the elements that have been seen so far, and it is kept by every further element
(`Collection.Accounted.add`).
-/

namespace SvgDisplayList

/-- Whether a report is that of a replacement. -/
def Diagnostic.isReplacement : Diagnostic → Bool
  | definitionConflict .. => true
  | _ => false

/-- Whether a report is that of an element with a fault. -/
def Diagnostic.isFault : Diagnostic → Bool
  | element .. => true
  | _ => false

namespace Collection

open Diagnostic

/-! ## Collected elements -/

/-- Why an element with an identifier is not collected: it is a gradient that cannot be read. -/
def unreadable? (id : String) (e : Xml.Element) : Option ElementError :=
  (GradientKind.ofElementName? e.name).bind fun kind =>
    match Gradient.ofElement kind id e with
    | .ok _ => none
    | .error error => some error

/-- The identifier and the name of an element that is collected. -/
def collected? (e : Xml.Element) : Option (String × String) :=
  (identifier? e).bind fun id =>
    match unreadable? id e with
    | none => some (id, e.name)
    | some _ => none

/-- The report of a gradient with an identifier that cannot be read. -/
def misreading? (e : Xml.Element) : Option Diagnostic :=
  (identifier? e).bind fun id => (unreadable? id e).map (.element e.name (some id))

/-- The identifiers and the names of the elements that are collected, in document order. -/
def collected (elements : List (Xml.Element × List Xml.Tag)) : List (String × String) :=
  elements.filterMap fun x => collected? x.1

/-- The reports of all gradients with identifiers that cannot be read, in document order. -/
def misreadings (elements : List (Xml.Element × List Xml.Tag)) : List Diagnostic :=
  elements.filterMap fun x => misreading? x.1

/-- The report of the replacement that an element makes behind `earlier` ones: it replaces the last
of them that has its identifier. -/
def replacement? (earlier : List (String × String)) (x : String × String) : Option Diagnostic :=
  (Keyed.last? earlier x.1).map fun previous => .definitionConflict x.1 previous x.2

/-- The reports of all replacements that elements make one after the other, behind `earlier`
ones. -/
def replacements (earlier : List (String × String)) : List (String × String) → List Diagnostic
  | [] => []
  | x :: rest => (replacement? earlier x).toList ++ replacements (earlier ++ [x]) rest

/-- What has been collected from elements before any gradient inherits. -/
def gathered (elements : List (Xml.Element × List Xml.Tag)) : Collection :=
  elements.foldl (fun c (e, ancestors) => c.add e ancestors) .empty

/-- The last element adds its own replacement to those of the elements before it. -/
lemma replacements_concat (earlier xs : List (String × String)) (x : String × String) :
    replacements earlier (xs ++ [x]) =
      replacements earlier xs ++ (replacement? (earlier ++ xs) x).toList := by
  induction xs generalizing earlier with
  | nil => simp [replacements]
  | cons y ys ih =>
    rw [List.cons_append, replacements, replacements, ih, List.append_assoc, List.append_assoc]
    rfl

/-- A replacement is reported as such. -/
lemma isReplacement_of_mem {earlier : List (String × String)} {x : String × String}
    {d : Diagnostic} (h : d ∈ (replacement? earlier x).toList) :
    d.isReplacement = true ∧ d.isFault = false := by
  obtain ⟨previous, -, rfl⟩ := Option.map_eq_some_iff.mp (Option.mem_toList.mp h)
  exact ⟨rfl, rfl⟩

/-- A gradient that cannot be read is reported as an element with a fault. -/
lemma isFault_of_misreading? {e : Xml.Element} {d : Diagnostic} (h : misreading? e = some d) :
    d.isFault = true := by
  obtain ⟨id, -, h⟩ := Option.bind_eq_some_iff.mp h
  obtain ⟨error, -, rfl⟩ := Option.map_eq_some_iff.mp h
  rfl

/-- What collecting an element does: nothing, or a report of a gradient that cannot be read, or a
definition of the name of the element. -/
lemma add_cases (c : Collection) (e : Xml.Element) (ancestors : List Xml.Tag) :
    (collected? e = none ∧ misreading? e = none ∧ c.add e ancestors = c) ∨
    (∃ d, collected? e = none ∧ misreading? e = some d ∧ c.add e ancestors = c.report d) ∨
    ∃ (id : String) (d : Definition) (c' : Collection),
      collected? e = some (id, d.tagName) ∧ misreading? e = none ∧
      c'.registry = c.registry ∧ c'.diagnostics = c.diagnostics ∧
      c.add e ancestors = c'.define id d := by
  unfold collected? misreading? add
  cases hid : identifier? e with
  | none => exact Or.inl ⟨rfl, rfl, rfl⟩
  | some id =>
    simp only [Option.bind_some, unreadable?]
    cases hkind : GradientKind.ofElementName? e.name with
    | none => exact Or.inr (Or.inr ⟨id, .element e ancestors, c, rfl, rfl, rfl, rfl, rfl⟩)
    | some kind =>
      simp only [Option.bind_some]
      cases hread : Gradient.ofElement kind id e with
      | error err => exact Or.inr (Or.inl ⟨_, rfl, rfl, rfl⟩)
      | ok g =>
        have hname : e.name = (Definition.gradient g).tagName := by
          change e.name = g.kind.elementName
          rw [(Gradient.ofElement_eq_ok hread).1]
          exact GradientKind.eq_elementName hkind
        refine Or.inr (Or.inr ⟨id, .gradient g, c.addGradient g, ?_, rfl, rfl, rfl, rfl⟩)
        rw [← hname]

/-- What defining does: an entry more, or a replacement more that is counted and reported. -/
lemma define_eq (c : Collection) (id : String) (d : Definition) :
    let conflict := (Keyed.get? c.registry.entries id).map fun previous =>
      definitionConflict id previous.tagName d.tagName
    (c.define id d).registry.conflicts = c.registry.conflicts + conflict.toList.length ∧
      (c.define id d).registry.entries.length + conflict.toList.length =
        c.registry.entries.length + 1 ∧
      (c.define id d).diagnostics = c.diagnostics ++ conflict.toList := by
  have hlength := Keyed.length_put c.registry.entries id d
  rw [entries_define, hlength]
  unfold define
  dsimp only
  cases hget : Keyed.get? c.registry.entries id with
  | none => exact ⟨rfl, rfl, (List.append_nil _).symm⟩
  | some previous => exact ⟨rfl, rfl, rfl⟩

/-! ## Accounts -/

variable {c : Collection} {seen : List (Xml.Element × List Xml.Tag)}

/-- A collection has one entry for each identifier among the collected ones of the elements seen so
far, with the name of the last element of the identifier.  All other collected elements have been
replaced; each replacement is counted and reported, and so is each gradient that cannot be read. -/
structure Accounted (seen : List (Xml.Element × List Xml.Tag)) (c : Collection) : Prop where
  nodup : (Keyed.names c.registry.entries).Nodup
  tagName : ∀ id,
    (Keyed.get? c.registry.entries id).map Definition.tagName = Keyed.last? (collected seen) id
  balance : c.registry.conflicts + c.registry.entries.length = (collected seen).length
  counted : (replacements [] (collected seen)).length = c.registry.conflicts
  replaced : c.diagnostics.filter isReplacement = replacements [] (collected seen)
  misread : c.diagnostics.filter isFault = misreadings seen
  known : ∀ d ∈ c.diagnostics, d.isReplacement = true ∨ d.isFault = true

namespace Accounted

/-- Nothing has been seen. -/
lemma empty : Accounted [] empty where
  nodup := List.nodup_nil
  tagName _ := rfl
  balance := rfl
  counted := rfl
  replaced := rfl
  misread := rfl
  known _ h := by cases h

variable {e : Xml.Element} {ancestors : List Xml.Tag}

/-- An element is seen that is neither collected nor reported. -/
lemma skip (h : Accounted seen c) (hcollected : collected? e = none)
    (hmisread : misreading? e = none) : Accounted (seen ++ [(e, ancestors)]) c := by
  have hseen : collected (seen ++ [(e, ancestors)]) = collected seen := by
    simp [collected, hcollected]
  have hreports : misreadings (seen ++ [(e, ancestors)]) = misreadings seen := by
    simp [misreadings, hmisread]
  refine ⟨h.nodup, ?_, ?_, ?_, ?_, ?_, h.known⟩
  · rw [hseen]
    exact h.tagName
  · rw [hseen]
    exact h.balance
  · rw [hseen]
    exact h.counted
  · rw [hseen]
    exact h.replaced
  · rw [hreports]
    exact h.misread

/-- A gradient is seen that cannot be read. -/
lemma report (h : Accounted seen c) {d : Diagnostic} (hcollected : collected? e = none)
    (hmisread : misreading? e = some d) :
    Accounted (seen ++ [(e, ancestors)]) (c.report d) := by
  have hseen : collected (seen ++ [(e, ancestors)]) = collected seen := by
    simp [collected, hcollected]
  have hreports : misreadings (seen ++ [(e, ancestors)]) = misreadings seen ++ [d] := by
    simp [misreadings, hmisread]
  have hfault : d.isFault = true := isFault_of_misreading? hmisread
  have hreplacement : d.isReplacement = false := by cases d <;> first | rfl | cases hfault
  have hdiagnostics : (c.report d).diagnostics = c.diagnostics ++ [d] := rfl
  refine ⟨h.nodup, ?_, ?_, ?_, ?_, ?_, ?_⟩
  · rw [hseen]
    exact h.tagName
  · rw [hseen]
    exact h.balance
  · rw [hseen]
    exact h.counted
  · rw [hseen, hdiagnostics, List.filter_append, h.replaced]
    simp [hreplacement]
  · rw [hreports, hdiagnostics, List.filter_append, h.misread]
    simp [hfault]
  · intro d' hd'
    rw [hdiagnostics, List.mem_append, List.mem_singleton] at hd'
    rcases hd' with hd' | rfl
    · exact h.known d' hd'
    · exact Or.inr hfault

/-- An element is seen that is collected: an entry more, or a replacement more that is reported. -/
lemma define (h : Accounted seen c) {id : String} {d : Definition}
    (hcollected : collected? e = some (id, d.tagName)) (hmisread : misreading? e = none) :
    Accounted (seen ++ [(e, ancestors)]) (c.define id d) := by
  have hseen : collected (seen ++ [(e, ancestors)]) = collected seen ++ [(id, d.tagName)] := by
    simp [collected, hcollected]
  have hreports : misreadings (seen ++ [(e, ancestors)]) = misreadings seen := by
    simp [misreadings, hmisread]
  have hreplacements : replacements [] (collected (seen ++ [(e, ancestors)])) =
      replacements [] (collected seen) ++
        (replacement? (collected seen) (id, d.tagName)).toList := by
    rw [hseen, replacements_concat, List.nil_append]
  have hconflict : ((Keyed.get? c.registry.entries id).map fun previous =>
      definitionConflict id previous.tagName d.tagName) =
      replacement? (collected seen) (id, d.tagName) := by
    unfold replacement?
    rw [← h.tagName id, Option.map_map]
    rfl
  obtain ⟨hconflicts, hlength, hdiagnostics⟩ := define_eq c id d
  rw [hconflict] at hconflicts hlength hdiagnostics
  have hkind : ∀ d' ∈ (replacement? (collected seen) (id, d.tagName)).toList,
      d'.isReplacement = true ∧ d'.isFault = false := fun _ hd' => isReplacement_of_mem hd'
  refine ⟨?_, fun id' => ?_, ?_, ?_, ?_, ?_, fun d' hd' => ?_⟩
  · rw [entries_define]
    exact Keyed.nodup_names_put h.nodup
  · rw [hseen, entries_define, Keyed.last?_append, Keyed.last?_cons, Keyed.get?_put,
      ← h.tagName id']
    by_cases hid : id = id' <;> simp [hid, Keyed.last?]
  · have hbalance := h.balance
    rw [hseen, List.length_append, List.length_singleton]
    omega
  · rw [hreplacements, List.length_append, h.counted, hconflicts]
  · rw [hdiagnostics, hreplacements, List.filter_append, h.replaced,
      List.filter_eq_self.mpr fun d' hd' => (hkind d' hd').1]
  · rw [hdiagnostics, hreports, List.filter_append, h.misread,
      List.filter_eq_nil_iff.mpr fun d' hd' => by simp [(hkind d' hd').2], List.append_nil]
  · rw [hdiagnostics, List.mem_append] at hd'
    exact hd'.elim (h.known d') fun hnew => Or.inl (hkind d' hnew).1

/-- An element is seen. -/
lemma add (h : Accounted seen c) (e : Xml.Element) (ancestors : List Xml.Tag) :
    Accounted (seen ++ [(e, ancestors)]) (c.add e ancestors) := by
  obtain ⟨hcollected, hmisread, hadd⟩ | ⟨d, hcollected, hmisread, hadd⟩ |
    ⟨id, d, c', hcollected, hmisread, hregistry, hdiagnostics, hadd⟩ := add_cases c e ancestors
  · rw [hadd]
    exact h.skip hcollected hmisread
  · rw [hadd]
    exact h.report hcollected hmisread
  · have h' : Accounted seen c' := by
      refine ⟨?_, ?_, ?_, ?_, ?_, ?_, ?_⟩ <;> simp only [hregistry, hdiagnostics]
      exacts [h.nodup, h.tagName, h.balance, h.counted, h.replaced, h.misread, h.known]
    rw [hadd]
    exact h'.define hcollected hmisread

/-- A list of elements is seen. -/
lemma foldl (h : Accounted seen c) (xs : List (Xml.Element × List Xml.Tag)) :
    Accounted (seen ++ xs) (xs.foldl (fun c (e, ancestors) => c.add e ancestors) c) := by
  induction xs generalizing seen c with
  | nil => rwa [List.append_nil]
  | cons x xs ih =>
    have hx := ih (h.add x.1 x.2)
    rwa [List.append_assoc] at hx

/-- What has been gathered from elements is accounted for. -/
lemma gathered (elements : List (Xml.Element × List Xml.Tag)) :
    Accounted elements (gathered elements) :=
  empty.foldl elements

/-- There are as many entries as identifiers among the collected elements. -/
lemma length_entries (h : Accounted seen c) :
    c.registry.entries.length = ((collected seen).map (·.1)).toFinset.card := by
  have hnames : ((collected seen).map (·.1)).toFinset =
      (Keyed.names c.registry.entries).toFinset := by
    ext id
    have hnone : id ∉ (collected seen).map (·.1) ↔ id ∉ Keyed.names c.registry.entries := by
      rw [← Keyed.get?_eq_none_iff, ← Option.map_eq_none_iff (f := Definition.tagName), h.tagName,
        Keyed.last?_eq_none_iff, List.mem_map]
      simp only [not_exists, not_and, ne_eq]
    rw [List.mem_toFinset, List.mem_toFinset]
    exact not_iff_not.mp hnone
  rw [hnames, List.toFinset_card_of_nodup h.nodup]
  unfold Keyed.names
  rw [List.length_map]

end Accounted

end Collection

/-! ## Counting -/

namespace Registry

/-- Every definition is of one of the three sorts that are counted. -/
lemma total_counts (r : Registry) : r.counts.total = r.entries.length := by
  unfold DefinitionCounts.total counts count
  dsimp only
  induction r.entries with
  | nil => rfl
  | cons entry rest ih =>
    obtain ⟨id, d⟩ := entry
    rw [List.length_cons, ← ih]
    cases d with
    | element e ancestors => simp [Nat.add_right_comm]
    | gradient g =>
      cases hkind : g.kind
      · simp only [List.filter_cons, hkind]
        simp [Nat.add_right_comm, ← Nat.add_assoc]
      · simp [hkind, ← Nat.add_assoc]

end Registry

open Collection in
/-- The accounts of the registry of a document balance.  Among the elements that are collected,
there are as many identifiers as definitions are counted, and all elements beyond these are counted
as replacements.  The replacements are reported in document order, each with the name of the last
collected element before it that has the identifier; each gradient with an identifier that cannot be
read is reported once, and nothing else is reported.  The counts are those from before the gradients
inherit. -/
theorem Registry.accounts_balance (root : Xml.Element) :
    let elements := root.node.elements []
    let ids := ((collected elements).map (·.1)).toFinset
    let registry := (Registry.collect root).1
    let reports := (Registry.collect root).2
    registry.counts.elements + registry.counts.linearGradients + registry.counts.radialGradients =
        ids.card ∧
      registry.counts.conflicts + ids.card = (collected elements).length ∧
      registry.counts.conflicts = (reports.filter Diagnostic.isReplacement).length ∧
      reports.filter Diagnostic.isReplacement = replacements [] (collected elements) ∧
      reports.filter Diagnostic.isFault = misreadings elements ∧
      (∀ d ∈ reports, d.isReplacement = true ∨ d.isFault = true) ∧
      registry.counts = (gathered elements).registry.counts := by
  intro elements ids registry reports
  have h : Accounted elements (gathered elements) := Accounted.gathered elements
  have hcounts : registry.counts = (gathered elements).registry.counts := counts_finish _
  have htotal : registry.counts.total = ids.card := by
    rw [hcounts, total_counts, h.length_entries]
  have hconflicts : registry.counts.conflicts = (gathered elements).registry.conflicts :=
    congrArg DefinitionCounts.conflicts hcounts
  refine ⟨htotal, ?_, ?_, h.replaced, h.misread, h.known, hcounts⟩
  · rw [hconflicts, ← h.length_entries, h.balance]
  · rw [hconflicts, ← h.counted, ← h.replaced]
    rfl

/-- A group, a square under the same identifier in blanks, and a gradient that cannot be read. -/
def Xml.rivals : Xml.Element where
  tag := ⟨0, none, "svg", []⟩
  children := [.element ⟨1, none, "g", [⟨none, "id", "a"⟩]⟩ [],
    .element ⟨2, none, "rect", [⟨none, "id", " a "⟩]⟩ [],
    .element ⟨3, none, "linearGradient",
      [⟨none, "id", "b"⟩, ⟨none, "gradientTransform", "turn"⟩]⟩ []]

/-- The accounts of such a document: one identifier, and one replacement that is reported. -/
theorem Registry.accounts_balance_rivals :
    let conflict := Diagnostic.definitionConflict "a" "g" "rect"
    (Registry.collect Xml.rivals).1.counts.conflicts = 1 ∧
      (Registry.collect Xml.rivals).2.filter Diagnostic.isReplacement = [conflict] ∧
      conflict.isReplacement = true := by
  intro conflict
  obtain ⟨-, -, hconflicts, hreplaced, -, hknown, -⟩ := accounts_balance Xml.rivals
  have hreplacements : Collection.replacements []
      (Collection.collected (Xml.rivals.node.elements [])) = [conflict] := by decide +kernel
  rw [hreplacements] at hreplaced
  have hmem : conflict ∈ (Registry.collect Xml.rivals).2 :=
    (List.mem_filter.mp (hreplaced ▸ List.mem_singleton_self conflict)).1
  refine ⟨?_, hreplaced, ?_⟩
  · rw [hconflicts, hreplaced, List.length_singleton]
  · exact (hknown conflict hmem).resolve_right (by decide)

end SvgDisplayList
