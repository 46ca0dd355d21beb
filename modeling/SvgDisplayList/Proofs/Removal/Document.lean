import SvgDisplayList.Proofs.Removal.Failing

/-!
# Documents without an element that cannot be drawn

One element that cannot be drawn does not disturb the rest: if the drawing of an element always ends
in an error, the document without the element has the same commands and the same definitions, and it
reports the same but for what is reported while the element is being drawn
(`Settings.same_without_failing`).
-/

namespace SvgDisplayList

/-- The text of a group that is drawn directly and through a use, with a path that cannot be read.
-/
def Xml.brokenPath : String :=
  "<svg><g id=\"a\"><path d=\"?\"/><rect width=\"1\" height=\"1\"/></g>" ++
    "<use href=\"#a\" x=\"2\"/></svg>"

/-- The text of the same group without the path. -/
def Xml.withoutBrokenPath : String :=
  "<svg><g id=\"a\"><rect width=\"1\" height=\"1\"/></g><use href=\"#a\" x=\"2\"/></svg>"

/-- The path. -/
def Xml.Element.brokenPath : Xml.Element := ⟨⟨2, none, "path", [⟨none, "d", "?"⟩]⟩, []⟩

/-- The tree of a group of the nodes that are given, and of a use of it that has a place. -/
def Xml.Document.usedGroup (ns : List Xml.Node) (order : Nat) : Xml.Document where
  root := ⟨⟨0, none, "svg", []⟩,
    [.element ⟨1, none, "g", [⟨none, "id", "a"⟩]⟩ ns,
    .element ⟨order, none, "use", [⟨none, "href", "#a"⟩, ⟨none, "x", "2"⟩]⟩ []]⟩
  beside := []

/-- A square in the group, at a place. -/
def Xml.groupSquare (order : Nat) : Xml.Node :=
  .element ⟨order, none, "rect", [⟨none, "width", "1"⟩, ⟨none, "height", "1"⟩]⟩ []

namespace Settings

variable (settings : Settings) {document document' : Xml.Document}

/-- What a document without the element draws, and what it reports, if the drawing of the element
always fails. -/
lemma drawing_without {root e : Xml.Element} {above : List Xml.Tag}
    (h : root.Detachable e above) (hnumbered : root.Numbered) (hsvg : root.name = "svg")
    (hfails : settings.AlwaysFails root e) :
    ∃ last, (settings.walk root last).agenda = [] ∧
      (settings.drawing (root.without e.tag.order)).commands = (settings.drawing root).commands ∧
      (settings.drawing root).diagnostics =
        (List.range last).flatMap (settings.reportsAt root) ∧
      (settings.drawing (root.without e.tag.order)).diagnostics =
        ((List.range last).filter fun m =>
          !(settings.walk root m).isDrawing e.tag.order).flatMap (settings.reportsAt root) := by
  obtain ⟨last, hlast⟩ := settings.exists_walk_done root
  have hagenda : (settings.walk root last).agenda = [] := by rw [hlast]
  obtain ⟨last', hbeside, hdiagnostics⟩ := exists_beside_walk h hnumbered hsvg hfails last
  have hdrawn := settings.drawn_eq_of_agenda_eq_nil hagenda
  have hdrawn' := settings.drawn_eq_of_agenda_eq_nil (hbeside.agenda_eq_nil hagenda)
  refine ⟨last, hagenda, ?_, ?_, ?_⟩
  · rw [← hdrawn, ← hdrawn']
    exact hbeside.commands_eq
  · rw [← hdrawn]
    exact settings.diagnostics_walk root last
  · rw [← hdrawn']
    exact hdiagnostics

/-- One bad element never disturbs the rest.  Let an element stand below the root element, a group
or a symbol, with no text around it, and let neither it nor anything below it have an identifier.
If the drawing of the element ends in an error whenever the walk comes to it, then the document
without the element has the same commands and counts the same definitions, and it reports the same
in the same order, but for what is reported while the element is being drawn.  -/
theorem same_without_failing {e : Xml.Element} {above : List Xml.Tag} {text text' : String}
    (hread : Xml.Document.read text = .ok document)
    (hdetachable : document.root.Detachable e above)
    (hfails : settings.definitionsOnly = false → settings.AlwaysFails document.root e)
    (hread' : Xml.Document.read text' = .ok document')
    (hwithout : document'.root.node.bare = (document.root.without e.tag.order).node.bare) :
    (∀ raised raised' signal signal' t t',
      settings.translateTree document raised = (.ok t, signal) →
      settings.translateTree document' raised' = (.ok t', signal') →
        t'.drawing.commands = t.drawing.commands ∧ t'.definitions = t.definitions ∧
        (settings.definitionsOnly = true → t'.drawing.diagnostics = t.drawing.diagnostics) ∧
        (settings.definitionsOnly = false →
          ∃ last, (settings.walk document.root last).agenda = [] ∧
            t.drawing.diagnostics = (Registry.collect document.root).2 ++
              (List.range last).flatMap (settings.reportsAt document.root) ∧
            t'.drawing.diagnostics = (Registry.collect document.root).2 ++
              ((List.range last).filter fun m =>
                !(settings.walk document.root m).isDrawing e.tag.order).flatMap
                  (settings.reportsAt document.root))) ∧
    (document.root.name = "svg" → (∀ q, settings.fonts.raisesAbort q = false) →
      ∃ t t', settings.translateTree document false = (.ok t, false) ∧
        settings.translateTree document' false = (.ok t', false)) := by
  have hnumbered := Xml.Document.numbered_of_read hread
  have hnumbered' := Xml.Document.numbered_of_read hread'
  refine ⟨fun raised raised' signal signal' t t' ht ht' => ?_, fun hsvg hquiet => ?_⟩
  · have hsvg := settings.root_name_of_translateTree ht
    obtain ⟨hdrawing, hreports, hcounts⟩ :=
      settings.same_of_bare_eq (hnumbered.without e.tag.order) hnumbered' hsvg hwithout
    obtain ⟨hregistry, hreportsWithout⟩ :=
      Registry.alike_without (hdetachable.loose hnumbered hsvg)
    rw [hreportsWithout] at hreports
    have hdefinitions : t'.definitions = t.definitions := by
      rw [settings.definitions_eq ht, settings.definitions_eq ht', hcounts, hregistry.counts_eq]
    cases hdraw : settings.definitionsOnly with
    | true =>
      have hsame : t'.drawing = t.drawing := by
        rw [settings.drawing_eq_of_definitionsOnly document hdraw ht,
          settings.drawing_eq_of_definitionsOnly document' hdraw ht', hreports]
      rw [hsame]
      exact ⟨rfl, hdefinitions, fun _ => rfl, nofun⟩
    | false =>
      obtain ⟨last, hagenda, hcommands, hdiagnostics, hdiagnostics'⟩ :=
        settings.drawing_without hdetachable hnumbered hsvg (hfails hdraw)
      refine ⟨?_, hdefinitions, nofun, fun _ => ⟨last, hagenda, ?_, ?_⟩⟩
      · rw [settings.commands_eq hdraw ht, settings.commands_eq hdraw ht', hdrawing, hcommands]
      · rw [settings.drawing_eq document hdraw ht, ← hdiagnostics]
        rfl
      · rw [settings.drawing_eq document' hdraw ht', hreports, hdrawing, ← hdiagnostics']
        rfl
  · have htag : document'.root.tag.unnumbered = document.root.tag.unnumbered :=
      Xml.Node.tag_eq_of_bare_eq (e := document.root.without e.tag.order) hwithout
    exact settings.exists_translateTree_both htag hsvg hquiet

set_option maxRecDepth 20000 in
/-- The path is reported once for each time that the group is drawn, and without it nothing is
reported; the square is drawn twice in both documents. -/
theorem same_without_failing_path :
    let document := Xml.Document.usedGroup [Xml.Element.brokenPath.node, Xml.groupSquare 3] 4
    let document' := Xml.Document.usedGroup [Xml.groupSquare 2] 3
    Xml.Document.read Xml.brokenPath = .ok document ∧
    Xml.Document.read Xml.withoutBrokenPath = .ok document' ∧
    (∃ above, document.root.Detachable Xml.Element.brokenPath above) ∧
    initial.AlwaysFails document.root Xml.Element.brokenPath ∧
    document'.root.node.bare = (document.root.without Xml.Element.brokenPath.tag.order).node.bare ∧
    ∃ t t', initial.translateTree document false = (.ok t, false) ∧
      initial.translateTree document' false = (.ok t', false) ∧
      t.drawing.commands.length = 2 ∧ t'.drawing.commands = t.drawing.commands ∧
      t'.definitions = t.definitions ∧ t.drawing.diagnostics.length = 2 ∧
      t'.drawing.diagnostics = [] := by
  intro document document'
  have hread : Xml.Document.read Xml.brokenPath = .ok document := rfl
  have hread' : Xml.Document.read Xml.withoutBrokenPath = .ok document' := rfl
  have hdetachable : document.root.Detachable Xml.Element.brokenPath
      [⟨1, none, "g", [⟨none, "id", "a"⟩]⟩, ⟨0, none, "svg", []⟩] := by
    refine ⟨List.mem_of_getElem? (i := 2) rfl, Or.inr ⟨_, _, rfl, List.mem_cons_self⟩, ?_, ?_⟩
    · decide
    · intro x hx
      cases List.mem_singleton.mp hx
      rfl
  have hfails : initial.AlwaysFails document.root Xml.Element.brokenPath := by
    intro moment ancestors style ts _
    exact ⟨_, rfl⟩
  have hwithout : document'.root.node.bare =
      (document.root.without Xml.Element.brokenPath.tag.order).node.bare := rfl
  obtain ⟨hsame, htranslated⟩ :=
    initial.same_without_failing hread hdetachable (fun _ => hfails) hread' hwithout
  obtain ⟨t, t', ht, ht'⟩ := htranslated rfl fun _ => rfl
  obtain ⟨hcommands, hdefinitions, -, -⟩ := hsame _ _ _ _ t t' ht ht'
  have hlength : (initial.drawing document.root).commands.length = 2 := by decide +kernel
  have hreports : ((Registry.collect document.root).2 ++
      (initial.drawing document.root).diagnostics).length = 2 := by decide +kernel
  have hreports' : (Registry.collect document'.root).2 ++
      (initial.drawing document'.root).diagnostics = [] := by decide +kernel
  refine ⟨hread, hread', ⟨_, hdetachable⟩, hfails, hwithout, t, t', ht, ht', ?_, hcommands,
    hdefinitions, ?_, ?_⟩
  · rw [initial.commands_eq rfl ht]
    exact hlength
  · rw [initial.drawing_eq document rfl ht]
    exact hreports
  · rw [initial.drawing_eq document' rfl ht']
    exact hreports'

end Settings

end SvgDisplayList
