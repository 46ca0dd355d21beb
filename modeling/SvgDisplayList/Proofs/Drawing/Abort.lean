import SvgDisplayList.Proofs.Drawing.Expansion

/-!
# When a drawing is aborted

The abort signal is looked at when an element is about to be drawn.  A text may raise it while an
element is being drawn, when it asks for the metrics of its font, and nobody lowers it meanwhile.
So the signal is a function of the queries that have been made (`Signal`).  Elements are drawn to
the end unless it is up before one of them (`Stage.drawUnder_fst`): it was up before the first of
them, or came up with one that is not the last (`Signal.exists_up_iff`).

Where the signal is raised by single queries, the elements are drawn to the end unless it is raised
before or one of them, which is not the last one, raises it (`Stage.Interrupted`); in any case it is
raised afterwards if it was raised before or any of them raises it (`Stage.drawUnlessAborted_eq`).
-/

namespace SvgDisplayList

/-- The queries that the texts of a drawing have made, in their order. -/
def Drawing.queries (d : Drawing) : List FontQuery := d.commands.filterMap DrawCommand.query?

/-- The abort signal while a document is drawn: whether it is up once some queries have been made.
Nobody lowers it. -/
structure Signal where
  up : List FontQuery → Bool
  stays : ∀ asked more, up asked = true → up (asked ++ more) = true

namespace Signal

variable {signal : Signal}

/-- A signal that is up at one of some moments is up at the first of them, or comes up between two
of them. -/
theorem exists_up_iff (asked : Nat → List FontQuery) (n : Nat) :
    (∃ i < n, signal.up (asked i) = true) ↔
      (signal.up (asked 0) = true ∧ 0 < n) ∨
        ∃ i, i + 1 < n ∧ signal.up (asked i) = false ∧ signal.up (asked (i + 1)) = true := by
  constructor
  · rintro ⟨i, hi, hup⟩
    -- The first moment at which it is up is nought or comes after one at which it is down.
    induction i with
    | zero => exact Or.inl ⟨hup, hi⟩
    | succ i ih =>
      cases hbefore : signal.up (asked i) with
      | true => exact ih (Nat.lt_of_succ_lt hi) hbefore
      | false => exact Or.inr ⟨i, hi, hbefore, hup⟩
  · rintro (⟨hup, hn⟩ | ⟨i, hi, -, hup⟩)
    · exact ⟨0, hn, hup⟩
    · exact ⟨i + 1, hi, hup⟩

end Signal

/-- The signal as single queries raise it. -/
def FontSource.signal (fonts : FontSource) (raised : Bool) : Signal where
  up asked := raised || asked.any fonts.raisesAbort
  stays asked more h := by
    rw [List.any_append, ← Bool.or_assoc, h, Bool.true_or]

/-- The signal is up if it was raised before or one of the queries raises it. -/
lemma FontSource.up_signal (fonts : FontSource) (raised : Bool) (asked : List FontQuery) :
    (fonts.signal raised).up asked = (raised || asked.any fonts.raisesAbort) := rfl

/-- More queries leave the signal up or raise it. -/
lemma FontSource.up_signal_append (fonts : FontSource) (raised : Bool)
    (asked more : List FontQuery) : (fonts.signal raised).up (asked ++ more) =
      ((fonts.signal raised).up asked || more.any fonts.raisesAbort) := by
  rw [up_signal, up_signal, List.any_append, Bool.or_assoc]

/-- A drawing raises the signal if one of its queries does. -/
lemma Drawing.raisesAbort_eq (d : Drawing) (fonts : FontSource) :
    d.raisesAbort fonts = d.queries.any fonts.raisesAbort := by
  unfold raisesAbort queries
  rw [List.any_filterMap]
  congr 1
  funext c
  cases c.query? with
  | none => rfl
  | some q => rfl

namespace Stage

/-- Draws the elements among nodes one over another, unless a signal is up when one of them is about
to start.  Returns the drawing, if it is complete, and the queries made until then. -/
def drawUnder (stage : Stage) (signal : Signal) (ancestors : List Xml.Tag) (place : Place) :
    List Xml.Node → (asked : List FontQuery) → Option Drawing × List FontQuery
  | [], asked => (some .empty, asked)
  | .text _ :: ns, asked => stage.drawUnder signal ancestors place ns asked
  | .element tag children :: ns, asked =>
    if signal.up asked then (none, asked)
    else
      let d := stage.draw (.element tag children) ancestors place
      let (rest, asked) := stage.drawUnder signal ancestors place ns (asked ++ d.queries)
      (rest.map (d ++ ·), asked)

variable (stage : Stage) (ancestors : List Xml.Tag) (place : Place)

/-- The queries that elements make when they are drawn one after the other. -/
def queries (es : List Xml.Element) : List FontQuery :=
  es.flatMap fun e => (stage.draw e.node ancestors place).queries

/-- A signal is up when one of some elements is about to be drawn, some queries having been made
before all of them. -/
def UpBefore (signal : Signal) (asked : List FontQuery) (es : List Xml.Element) : Prop :=
  ∃ i < es.length, signal.up (asked ++ stage.queries ancestors place (es.take i)) = true

instance (signal : Signal) (asked : List FontQuery) (es : List Xml.Element) :
    Decidable (stage.UpBefore ancestors place signal asked es) :=
  inferInstanceAs (Decidable (∃ i < _, _))

/-- Whether an element raises the abort signal when it is drawn. -/
def raises (e : Xml.Element) : Bool :=
  (stage.draw e.node ancestors place).raisesAbort stage.fonts

/-- The abort signal is raised when one of some elements is about to be drawn: it was raised before
all of them, or one that is drawn before raises it. -/
def Interrupted (es : List Xml.Element) (raised : Bool) : Prop :=
  (raised = true ∧ es ≠ []) ∨ ∃ e ∈ es.dropLast, stage.raises ancestors place e = true

instance (es : List Xml.Element) (raised : Bool) :
    Decidable (stage.Interrupted ancestors place es raised) :=
  inferInstanceAs (Decidable (_ ∨ _))

variable {stage ancestors place}

/-- The queries of one element more come first. -/
lemma queries_cons (e : Xml.Element) (es : List Xml.Element) :
    stage.queries ancestors place (e :: es) =
      (stage.draw e.node ancestors place).queries ++ stage.queries ancestors place es :=
  List.flatMap_cons

/-- Elements raise the signal if one of their queries does. -/
lemma any_raises (es : List Xml.Element) :
    es.any (stage.raises ancestors place) =
      (stage.queries ancestors place es).any stage.fonts.raisesAbort := by
  unfold queries raises
  simp only [Drawing.raisesAbort_eq, List.any_flatMap]

/-! ## Drawing under a signal -/

variable {signal : Signal}

/-- Where there is nothing to draw, the signal is not up before anything. -/
lemma not_upBefore_nil (asked : List FontQuery) :
    ¬ stage.UpBefore ancestors place signal asked [] := by
  rintro ⟨i, hi, -⟩
  exact Nat.not_lt_zero i hi

/-- A signal that is up is up before the first element. -/
lemma upBefore_of_up {asked : List FontQuery} (hup : signal.up asked = true) (e : Xml.Element)
    (es : List Xml.Element) : stage.UpBefore ancestors place signal asked (e :: es) := by
  refine ⟨0, Nat.succ_pos _, ?_⟩
  rwa [List.take_zero, queries, List.flatMap_nil, List.append_nil]

/-- A signal that is down is up before one of the elements behind the first one, if it is up before
any. -/
lemma upBefore_iff_of_down {asked : List FontQuery} (hdown : signal.up asked = false)
    (e : Xml.Element) (es : List Xml.Element) :
    stage.UpBefore ancestors place signal asked (e :: es) ↔
      stage.UpBefore ancestors place signal
        (asked ++ (stage.draw e.node ancestors place).queries) es := by
  unfold UpBefore
  rw [List.length_cons, Nat.exists_lt_succ_left, List.take_zero, queries, List.flatMap_nil,
    List.append_nil, hdown]
  simp only [List.take_succ_cons, queries_cons, List.append_assoc, Bool.false_eq_true, false_or]

/-- Elements are drawn to the end unless the signal is up when one of them is about to start. -/
theorem drawUnder_fst (ns : List Xml.Node) (asked : List FontQuery) :
    (stage.drawUnder signal ancestors place ns asked).1 =
      if stage.UpBefore ancestors place signal asked (ns.filterMap Xml.Node.element?) then none
      else some (stage.nodes (stage.reuse stage.reuseLimit) ns ancestors place) := by
  induction ns generalizing asked with
  | nil =>
    rw [drawUnder, nodes, List.filterMap_nil, if_neg (not_upBefore_nil asked)]
  | cons n ns ih =>
    cases n with
    | text s =>
      rw [drawUnder, ih, nodes_cons, node, Drawing.empty_append]
      rfl
    | element tag children =>
      have hes : (Xml.Node.element tag children :: ns).filterMap Xml.Node.element? =
          ⟨tag, children⟩ :: ns.filterMap Xml.Node.element? := rfl
      rw [drawUnder, hes]
      cases hup : signal.up asked with
      | true => rw [if_pos rfl, if_pos (upBefore_of_up hup _ _)]
      | false =>
        have hlater : stage.UpBefore ancestors place signal asked
            (⟨tag, children⟩ :: ns.filterMap Xml.Node.element?) ↔
              stage.UpBefore ancestors place signal
                (asked ++ (stage.draw (.element tag children) ancestors place).queries)
                (ns.filterMap Xml.Node.element?) :=
          upBefore_iff_of_down hup ⟨tag, children⟩ _
        rw [if_neg Bool.false_ne_true]
        dsimp only
        rw [ih, nodes_cons]
        simp only [hlater]
        split_ifs
        · rfl
        · rfl

/-- In the end the signal is as all the queries together leave it. -/
theorem up_drawUnder_snd (ns : List Xml.Node) (asked : List FontQuery) :
    signal.up (stage.drawUnder signal ancestors place ns asked).2 =
      signal.up (asked ++ stage.queries ancestors place (ns.filterMap Xml.Node.element?)) := by
  induction ns generalizing asked with
  | nil => rw [drawUnder, List.filterMap_nil, queries, List.flatMap_nil, List.append_nil]
  | cons n ns ih =>
    cases n with
    | text s => exact ih asked
    | element tag children =>
      have hes : (Xml.Node.element tag children :: ns).filterMap Xml.Node.element? =
          ⟨tag, children⟩ :: ns.filterMap Xml.Node.element? := rfl
      rw [drawUnder, hes, queries_cons, ← List.append_assoc]
      cases hup : signal.up asked with
      | true =>
        rw [if_pos rfl, hup, List.append_assoc]
        exact (signal.stays _ _ hup).symm
      | false =>
        rw [if_neg Bool.false_ne_true]
        exact ih _

/-! ## Signals raised by single queries -/

variable (stage ancestors place) in
/-- Drawing with the fonts of the stage is drawing under the signal that they raise. -/
theorem drawUnlessAborted_eq_drawUnder (raised : Bool) (ns : List Xml.Node)
    (asked : List FontQuery) :
    stage.drawUnlessAborted ancestors place ns ((stage.fonts.signal raised).up asked) =
      (stage.drawUnder (stage.fonts.signal raised) ancestors place ns asked).map id
        (stage.fonts.signal raised).up := by
  induction ns generalizing asked with
  | nil => rfl
  | cons n ns ih =>
    cases n with
    | text s => exact ih asked
    | element tag children =>
      rw [drawUnlessAborted, drawUnder]
      cases hup : (stage.fonts.signal raised).up asked with
      | true =>
        rw [if_pos rfl, if_pos rfl, Prod.map_apply, hup]
        rfl
      | false =>
        have hafter : (stage.draw (.element tag children) ancestors place).raisesAbort stage.fonts =
            (stage.fonts.signal raised).up
              (asked ++ (stage.draw (.element tag children) ancestors place).queries) := by
          rw [Drawing.raisesAbort_eq, FontSource.up_signal_append, hup, Bool.false_or]
        rw [if_neg Bool.false_ne_true, if_neg Bool.false_ne_true]
        dsimp only
        rw [hafter, ih]
        rfl

/-- Elements are interrupted if the signal that they raise is up when one of them is about to be
drawn. -/
lemma interrupted_iff (es : List Xml.Element) (raised : Bool) :
    stage.Interrupted ancestors place es raised ↔
      stage.UpBefore ancestors place (stage.fonts.signal raised) [] es := by
  have hup : ∀ i,
      (stage.fonts.signal raised).up ([] ++ stage.queries ancestors place (es.take i)) = true ↔
        raised = true ∨ ∃ e ∈ es.take i, stage.raises ancestors place e = true := by
    intro i
    rw [List.nil_append, FontSource.up_signal, ← any_raises, Bool.or_eq_true, List.any_eq_true]
  unfold Interrupted UpBefore
  simp only [hup]
  constructor
  · rintro (⟨hraised, hne⟩ | ⟨e, he, hraises⟩)
    · exact ⟨0, List.length_pos_iff.mpr hne, Or.inl hraised⟩
    · rw [List.dropLast_eq_take] at he
      have hlt : es.length - 1 < es.length := by
        have := List.length_pos_of_mem (List.mem_of_mem_take he)
        omega
      exact ⟨es.length - 1, hlt, Or.inr ⟨e, he, hraises⟩⟩
  · rintro ⟨i, hi, hraised | ⟨e, he, hraises⟩⟩
    · exact Or.inl ⟨hraised, List.length_pos_iff.mp (Nat.zero_lt_of_lt hi)⟩
    · refine Or.inr ⟨e, ?_, hraises⟩
      rw [List.dropLast_eq_take]
      exact List.take_subset_take_left es (Nat.le_sub_one_of_lt hi) he

/-- Elements are drawn to the end unless they are interrupted, and what they raise stays raised. -/
theorem drawUnlessAborted_eq (ns : List Xml.Node) (raised : Bool) :
    stage.drawUnlessAborted ancestors place ns raised =
      (if stage.Interrupted ancestors place (ns.filterMap Xml.Node.element?) raised then none
        else some (stage.nodes (stage.reuse stage.reuseLimit) ns ancestors place),
      raised || (ns.filterMap Xml.Node.element?).any (stage.raises ancestors place)) := by
  have hstart : (stage.fonts.signal raised).up [] = raised := Bool.or_false raised
  have hdraw := drawUnlessAborted_eq_drawUnder stage ancestors place raised ns []
  rw [hstart, Prod.map, drawUnder_fst, up_drawUnder_snd, List.nil_append] at hdraw
  simp only [← interrupted_iff] at hdraw
  rw [hdraw, any_raises]
  rfl

/-- Where no font raises the signal, no element does. -/
lemma raises_of_quiet (hquiet : ∀ q, stage.fonts.raisesAbort q = false) (e : Xml.Element) :
    stage.raises ancestors place e = false := by
  unfold raises
  rw [Drawing.raisesAbort_eq, List.any_eq_false]
  intro q _
  rw [hquiet q]
  exact Bool.false_ne_true

/-- Where no element raises the signal and it is down, nothing is interrupted. -/
lemma not_interrupted_of_quiet (hquiet : ∀ q, stage.fonts.raisesAbort q = false)
    (es : List Xml.Element) : ¬ stage.Interrupted ancestors place es false := by
  rintro (⟨hraised, -⟩ | ⟨e, -, he⟩)
  · cases hraised
  · rw [raises_of_quiet hquiet] at he
    cases he

end Stage

end SvgDisplayList
