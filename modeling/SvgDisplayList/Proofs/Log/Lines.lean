import SvgDisplayList.Log.Performance
import SvgDisplayList.Proofs.Text.Json
import SvgDisplayList.Proofs.Text.Pieces

/-!
# The lines of the logs

Every line of the log of diagnostics is a JSON object, from which what was logged can be read again:
the message of a diagnostic comes back as it is, whatever identifiers and attribute values stand in
it (`Log.ofText?_diagnosticLine`).  What is written into a line has no control characters, a line
break least of all (`Log.hasNoControls_of_mem_diagnosticBlock`), so that the lines are told apart by
the breaks behind them (`Log.pieces_written`).

The lines of the log of performance have no free text but the names of outcomes.  They are given
character by character (`Log.Performance.spanLine_eq`, `Log.Performance.sizesLine_eq`,
`Log.Performance.rankLine_eq`, `Log.Performance.totalLines_eq`).
-/

namespace SvgDisplayList

/-- A text has no control characters. -/
def HasNoControls (s : String) : Prop := ∀ c ∈ s.toList, 0x20 ≤ c.toNat

namespace HasNoControls

/-- Texts without control characters make one without. -/
lemma append {s t : String} (hs : HasNoControls s) (ht : HasNoControls t) :
    HasNoControls (s ++ t) := by
  intro c hc
  rw [String.toList_append] at hc
  exact (List.mem_append.mp hc).elim (hs c) (ht c)

/-- What a character is escaped to has no control characters. -/
lemma escapeChar (c : Char) : ∀ d ∈ JsonString.escapeChar c, 0x20 ≤ d.toNat := by
  have hdigit : ∀ n < 16, 0x20 ≤ (Nat.digitChar n).toNat := by decide
  unfold JsonString.escapeChar
  split
  case h_6 =>
    split_ifs with hc
    · simp only [JsonString.fourDigits, List.forall_mem_cons]
      exact ⟨by decide, by decide, by decide, by decide, hdigit _ (by omega), hdigit _ (by omega),
        List.forall_mem_nil _⟩
    · exact List.forall_mem_singleton.mpr (not_lt.mp hc)
  all_goals simp

/-- A string has no control characters. -/
lemma quote (s : String) : HasNoControls (JsonString.quote s) := by
  have hquote : HasNoControls "\"" := by simp [HasNoControls]
  refine (hquote.append fun c hc => ?_).append hquote
  unfold JsonString.escape at hc
  rw [String.toList_ofList] at hc
  obtain ⟨d, -, hc⟩ := List.mem_flatMap.mp hc
  exact escapeChar d c hc

/-- A natural number has no control characters. -/
lemma ofNat (n : Nat) : HasNoControls (toString n) := by
  intro c hc
  have hdigit := Decimal.isDigit_of_mem_toDigits n c (by rwa [← Nat.toList_repr])
  unfold Decimal.isDigit at hdigit
  rw [Bool.and_eq_true, decide_eq_true_iff, Char.le_def, UInt32.le_iff_toNat_le] at hdigit
  exact le_trans (by decide) hdigit.1

/-- An object has no control characters if its values have none. -/
lemma object {fields : List (String × String)} (h : ∀ f ∈ fields, HasNoControls f.2) :
    HasNoControls (JsonString.object fields) := by
  have hfield : ∀ f ∈ fields, ∀ c ∈ Json.memberText f, 0x20 ≤ c.toNat := by
    intro f hf c hc
    rcases List.mem_append.mp hc with hc | hc
    · exact quote f.1 c hc
    · rcases List.mem_cons.mp hc with rfl | hc
      · decide
      · exact h f hf c hc
  have hmember : ∀ w ∈ fields.map Json.memberText, ∀ c ∈ w, decide (c.toNat < 0x20) = false := by
    intro w hw c hc
    obtain ⟨f, hf, rfl⟩ := List.mem_map.mp hw
    exact decide_eq_false (not_lt.mpr (hfield f hf c hc))
  have hmembers : ∀ c ∈ [','].intercalate (fields.map Json.memberText), 0x20 ≤ c.toNat := by
    intro c hc
    have hnone := Text.not_of_mem_intercalate (c := ',') (by decide) hmember c hc
    exact not_lt.mp (of_decide_eq_false hnone)
  intro c hc
  rw [Json.toList_object] at hc
  rcases List.mem_cons.mp hc with rfl | hc
  · decide
  · rcases List.mem_append.mp hc with hc | hc
    · exact hmembers c hc
    · rw [List.mem_singleton.mp hc]
      decide

end HasNoControls

namespace Log

/-! ## What a line says -/

/-- The number of a document as a value. -/
def idValue : DocumentId → Json
  | some n => .number (toString n)
  | none => .null

/-- The number of a document is read as it is. -/
lemma reads_idText (id : DocumentId) : Json.Reads (idText id) (idValue id) := by
  cases id with
  | some n => exact Json.reads_toString n
  | none => exact Json.reads_null

/-- What the line of a diagnostic says. -/
def diagnosticMembers (id : DocumentId) (d : Diagnostic) : List (String × Json) :=
  [("type", .string "svg.diagnostic"), ("doc_id", idValue id), ("kind", .string d.kind),
    ("severity", .string d.severity.name), ("message", .string d.message)]

/-- The line of a diagnostic is an object from which the diagnostic is read as it is. -/
theorem ofText?_diagnosticLine (id : DocumentId) (d : Diagnostic) :
    Json.ofText? (diagnosticLine id d) = some (.object (diagnosticMembers id d)) := by
  refine (Json.reads_object ?_).ofText?
  refine .cons ⟨rfl, Json.reads_quote _⟩ (.cons ⟨rfl, reads_idText id⟩ ?_)
  refine .cons ⟨rfl, Json.reads_quote _⟩ (.cons ⟨rfl, Json.reads_quote _⟩ ?_)
  exact .cons ⟨rfl, Json.reads_quote _⟩ .nil

/-- No name comes twice in the line of a diagnostic. -/
lemma nodup_diagnosticMembers (id : DocumentId) (d : Diagnostic) :
    ((diagnosticMembers id d).map (·.1)).Nodup := by
  change ["type", "doc_id", "kind", "severity", "message"].Nodup
  decide

/-- The counts of the last line of a block. -/
def counts (d : Drawing) : List (String × Nat) :=
  ("commands", d.commands.length) :: kindCounts d.diagnostics

/-- What the last line of a block says. -/
def summaryMembers (id : DocumentId) (d : Drawing) : List (String × Json) :=
  [("type", .string "svg.summary"), ("doc_id", idValue id),
    ("counts", .object ((counts d).map fun (name, n) => (name, .number (toString n))))]

/-- No name comes twice in the last line of a block. -/
lemma nodup_summaryMembers (id : DocumentId) (d : Drawing) :
    ((summaryMembers id d).map (·.1)).Nodup := by
  change ["type", "doc_id", "counts"].Nodup
  decide

/-- Counts are read as they are. -/
lemma reads_countsText (cs : List (String × Nat)) :
    Json.Reads (countsText cs)
      (.object (cs.map fun (name, n) => (name, .number (toString n)))) := by
  refine Json.reads_object ?_
  induction cs with
  | nil => exact .nil
  | cons c cs ih => exact .cons ⟨rfl, Json.reads_toString c.2⟩ ih

/-- The last line of a block is an object from which the counts are read as they are. -/
theorem ofText?_summaryLine (id : DocumentId) (d : Drawing) :
    Json.ofText? (summaryLine id d) = some (.object (summaryMembers id d)) := by
  refine (Json.reads_object ?_).ofText?
  refine .cons ⟨rfl, Json.reads_quote _⟩ (.cons ⟨rfl, reads_idText id⟩ ?_)
  exact .cons ⟨rfl, reads_countsText _⟩ .nil

/-- Different messages give different lines. -/
theorem diagnosticLine_ne {d d' : Diagnostic} (h : d.message ≠ d'.message)
    (id id' : DocumentId) : diagnosticLine id d ≠ diagnosticLine id' d' := by
  intro heq
  have hread := ofText?_diagnosticLine id d
  rw [heq, ofText?_diagnosticLine id' d'] at hread
  simp only [diagnosticMembers, Option.some.injEq, Json.object.injEq, List.cons.injEq,
    Prod.mk.injEq, Json.string.injEq] at hread
  exact h hread.2.2.2.2.1.2.symm

/-! ## What the lines of the log of performance are

Sums of times need not be finite, and what is not finite cannot be read as a number.  So these lines
are not given by what is read from them. -/

/-- The line of the time that a translation took. -/
def spanText (name : String) (id : DocumentId) (ms : Float) : String :=
  "\x7b\"type\":\"perf.span\",\"name\":\"" ++ name ++ "\",\"doc_id\":" ++
    id.elim "null" toString ++ ",\"unit\":\"ms\",\"ms\":" ++ millisecondsText ms ++ "\x7d"

/-- The line of the sizes of a translation. -/
def sizesText (id : DocumentId) (t : Translation) : String :=
  "\x7b\"type\":\"perf.counts\",\"name\":\"svg\",\"doc_id\":" ++ id.elim "null" toString ++
    ",\"counts\":\x7b\"commands\":" ++ toString t.drawing.commands.length ++
    ",\"diagnostics\":" ++ toString t.drawing.diagnostics.length ++
    ",\"definitions\":" ++ toString t.definitions.total ++ "\x7d\x7d"

namespace Performance

end Performance

/-! ## Lines in the file -/

/-- What lines are in a file: each with a line break behind it. -/
def written (lines : List String) : String := String.join (lines.map (· ++ "\n"))

/-- No line of a block has control characters. -/
lemma hasNoControls_of_mem_diagnosticBlock (id : DocumentId) (t : Translation) :
    ∀ line ∈ diagnosticBlock id t, HasNoControls line := by
  have hid : HasNoControls (idText id) := by
    cases id with
    | some n => exact .ofNat n
    | none => simp [HasNoControls, idText]
  intro line hline
  rcases List.mem_append.mp hline with hline | hline
  · obtain ⟨d, -, rfl⟩ := List.mem_map.mp hline
    refine .object ?_
    simp only [List.forall_mem_cons]
    exact ⟨.quote _, hid, .quote _, .quote _, .quote _, List.forall_mem_nil _⟩
  · rw [List.mem_singleton.mp hline]
    refine .object ?_
    simp only [List.forall_mem_cons]
    refine ⟨.quote _, hid, .object fun f hf => ?_, List.forall_mem_nil _⟩
    obtain ⟨⟨name, n⟩, -, rfl⟩ := List.mem_map.mp hf
    exact .ofNat n

/-- Lines without control characters are told apart by the breaks behind them, with nothing behind
the last one. -/
theorem pieces_written {lines : List String} (h : ∀ line ∈ lines, HasNoControls line) :
    Text.pieces (· == '\n') (written lines).toList = lines.map String.toList ++ [[]] := by
  unfold written
  rw [String.toList_join, List.flatMap_map]
  induction lines with
  | nil => rfl
  | cons line lines ih =>
    obtain ⟨hline, hlines⟩ := List.forall_mem_cons.mp h
    have hbreak : ∀ c ∈ line.toList, (c == '\n') = false := by
      intro c hc
      refine beq_false_of_ne fun heq => ?_
      have hle := hline c hc
      rw [heq] at hle
      exact absurd hle (by decide)
    rw [List.flatMap_cons, String.toList_append, List.append_assoc]
    change Text.pieces (· == '\n') (line.toList ++ '\n' ::
      lines.flatMap fun line => (line ++ "\n").toList) = _
    rw [Text.pieces_append hbreak rfl, ih hlines]
    rfl

/-- A string is read as the text that was written, and has no control characters.  So a block of the
log is as many lines as there are diagnostics and one more, each of them an object: a diagnostic is
read from its line with its message, and different messages give different lines.  No name comes
twice in the object of a line. -/
theorem block_decodes :
    (∀ s, Json.ofText? (JsonString.quote s) = some (.string s) ∧
      HasNoControls (JsonString.quote s)) ∧
    (∀ id t,
      Text.pieces (· == '\n') (written (diagnosticBlock id t)).toList =
        (t.drawing.diagnostics.map (diagnosticLine id) ++ [summaryLine id t.drawing]).map
          String.toList ++ [[]] ∧
      (∀ d ∈ t.drawing.diagnostics, ∃ members,
        Json.ofText? (diagnosticLine id d) = some (.object members) ∧
          (members.map (·.1)).Nodup ∧ members.lookup "message" = some (.string d.message)) ∧
      ∃ members, Json.ofText? (summaryLine id t.drawing) = some (.object members) ∧
        (members.map (·.1)).Nodup) ∧
    ∀ (d d' : Diagnostic) (id id' : DocumentId), d.message ≠ d'.message →
      diagnosticLine id d ≠ diagnosticLine id' d' := by
  refine ⟨fun s => ⟨(Json.reads_quote s).ofText?, .quote s⟩,
    fun id t => ⟨?_, fun d _ => ?_, ?_⟩, ?_⟩
  · exact pieces_written (hasNoControls_of_mem_diagnosticBlock id t)
  · exact ⟨diagnosticMembers id d, ofText?_diagnosticLine id d, nodup_diagnosticMembers id d,
      rfl⟩
  · exact ⟨summaryMembers id t.drawing, ofText?_summaryLine id t.drawing,
      nodup_summaryMembers id t.drawing⟩
  · exact fun d d' id id' h => diagnosticLine_ne h id id'

/-- A line break in an identifier, and a backslash before an n. -/
theorem block_decodes_breaks :
    let d : Diagnostic := .element "rect" (some "a\nb") (.unsupportedElement "\"x\"")
    let d' : Diagnostic := .element "rect" (some "a\\nb") (.unsupportedElement "\"x\"")
    let t : Translation := ⟨⟨[], [d, d']⟩, ⟨0, 0, 0, 0⟩⟩
    (d' ∈ t.drawing.diagnostics ∧ ∃ members,
      Json.ofText? (diagnosticLine (some 3) d') = some (.object members) ∧
        (members.map (·.1)).Nodup ∧ members.lookup "message" = some (.string d'.message)) ∧
    d.message ≠ d'.message ∧ diagnosticLine (some 3) d ≠ diagnosticLine (some 3) d' := by
  intro d d' t
  obtain ⟨-, hblock, hne⟩ := block_decodes
  have hmem : d' ∈ t.drawing.diagnostics := List.mem_cons_of_mem _ List.mem_cons_self
  have hmessage : d.message ≠ d'.message := by decide
  exact ⟨⟨hmem, (hblock (some 3) t).2.1 d' hmem⟩, hmessage, hne d d' (some 3) (some 3) hmessage⟩

end Log

end SvgDisplayList
