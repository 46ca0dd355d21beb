import SvgDisplayList.Proofs.Style.Inline

/-!
# Declarations in a row

Declarations are made one by one or by style texts, and each call writes values under names, one
after the other (`Declarations.Call.writes`).  What is declared after a row of calls depends on what
was written alone: the names stand in the order in which they were first written, each with the last
value (`Declarations.names_after`, `Declarations.get?_after`).

A style text writes what its pieces declare.  `Declarations.Declares` says what a piece declares
without telling how it is read.  A piece that would declare something for the empty name is passed
over, which `Declarations.ofPiece?_eq_some_iff` adds.
-/

namespace SvgDisplayList

namespace Declarations

/-! ## Pieces of a style text -/

/-- The mark of importance, from which on a value is cut off. -/
def important : List Char := "!important".toList

/-- A value that is cut at the last mark of importance, if there is one. -/
def IsCut (value cut : List Char) : Prop :=
  (∃ before, Text.LastBehind important value before ∧ cut = Text.trim before) ∨
    (∀ before, ¬ Text.OccursBehind important value before) ∧ cut = value

/-- A piece declares a value under a name: it has a first colon, in front of which stands the name
in letters of any case, and behind which stands the value, possibly marked as important.  The value
is not empty. -/
def Declares (piece : List Char) (name value : String) : Prop :=
  ∃ front behind, piece = front ++ ':' :: behind ∧ ':' ∉ front ∧
    name.toList = Text.lower (Text.trim front) ∧ IsCut (Text.trim behind) value.toList ∧ value ≠ ""

/-- What is left of a value. -/
def cut (value : List Char) : List Char :=
  match Text.beforeLast? important value with
  | some before => Text.trim before
  | none => value

/-- A value is cut at the last mark of importance. -/
lemma isCut_iff {value c : List Char} : IsCut value c ↔ c = cut value := by
  unfold IsCut cut
  cases hlast : Text.beforeLast? important value with
  | some before =>
    have hbefore := Text.beforeLast?_eq_some_iff.mp hlast
    constructor
    · rintro (⟨before', h, rfl⟩ | ⟨hnone, -⟩)
      · rw [h.eq hbefore]
      · exact absurd hbefore.occurs (hnone before)
    · exact fun h => Or.inl ⟨before, hbefore, h⟩
  | none =>
    have hnone := Text.beforeLast?_eq_none_iff.mp hlast
    constructor
    · rintro (⟨before, h, -⟩ | ⟨-, h⟩)
      · exact absurd h.occurs (hnone before)
      · exact h
    · exact fun h => Or.inr ⟨hnone, h⟩

/-- A piece is read from what stands in front of its first colon and behind it. -/
lemma ofPiece?_append {front : List Char} (h : ':' ∉ front) (behind : List Char) :
    ofPiece? (front ++ ':' :: behind) =
      if (Text.lower (Text.trim front)).isEmpty || (cut (Text.trim behind)).isEmpty then none
      else some (String.ofList (Text.lower (Text.trim front)),
        String.ofList (cut (Text.trim behind))) := by
  have hsplit : Text.splitAt? (· == ':') (front ++ ':' :: behind) = some (front, behind) :=
    Text.splitAt?_append (fun c hc => beq_false_of_ne fun heq => h (heq ▸ hc)) rfl
  unfold ofPiece?
  rw [hsplit]
  rfl

/-- A piece is read as what it declares, unless its name is empty. -/
theorem ofPiece?_eq_some_iff {piece : List Char} {name value : String} :
    ofPiece? piece = some (name, value) ↔ name ≠ "" ∧ Declares piece name value := by
  have hempty (cs : List Char) : String.ofList cs = "" ↔ cs.isEmpty = true := by
    rw [List.isEmpty_iff, ← String.toList_inj, String.toList_ofList]
    rfl
  constructor
  · intro h
    cases hsplit : Text.splitAt? (· == ':') piece with
    | none =>
      unfold ofPiece? at h
      rw [hsplit] at h
      cases h
    | some parts =>
      obtain ⟨front, behind⟩ := parts
      obtain ⟨c, hc, rfl, hfront⟩ := Text.eq_append_of_splitAt? hsplit
      obtain rfl := beq_iff_eq.mp hc
      have hnot : ':' ∉ front := fun hmem => by
        have hcolon := hfront _ hmem
        cases hcolon
      rw [ofPiece?_append hnot] at h
      split_ifs at h with hnone
      cases h
      rw [Bool.or_eq_true, not_or, ← hempty, ← hempty] at hnone
      refine ⟨hnone.1, front, behind, rfl, hnot, String.toList_ofList, ?_, hnone.2⟩
      exact isCut_iff.mpr String.toList_ofList
  · rintro ⟨hname, front, behind, rfl, hnot, hlower, hcut, hvalue⟩
    obtain rfl : name = String.ofList (Text.lower (Text.trim front)) := by
      rw [← hlower, String.ofList_toList]
    obtain rfl : value = String.ofList (cut (Text.trim behind)) := by
      rw [← isCut_iff.mp hcut, String.ofList_toList]
    rw [ofPiece?_append hnot, if_neg]
    rw [Bool.or_eq_true, not_or, ← hempty, ← hempty]
    exact ⟨hname, hvalue⟩

/-! ## Style texts -/

/-- The pieces of a style text. -/
def pieces (text : String) : List (List Char) := Text.pieces (· == ';') text.toList

variable {text name value : String}

/-- A style text writes what its pieces declare. -/
lemma mem_ofStyle_iff : (name, value) ∈ ofStyle text.toList ↔
    name ≠ "" ∧ ∃ piece ∈ pieces text, Declares piece name value := by
  unfold ofStyle
  rw [List.mem_filterMap]
  simp only [ofPiece?_eq_some_iff]
  constructor
  · rintro ⟨piece, hmem, hname, h⟩
    exact ⟨hname, piece, hmem, h⟩
  · rintro ⟨hname, piece, hmem, h⟩
    exact ⟨piece, hmem, hname, h⟩

/-- Two style texts with a semicolon between them write what they write one after the other. -/
lemma ofStyle_append (a b : String) :
    ofStyle (a ++ ";" ++ b).toList = ofStyle a.toList ++ ofStyle b.toList := by
  have htext : (a ++ ";" ++ b).toList = a.toList ++ ';' :: b.toList := by
    rw [String.toList_append, String.toList_append, List.append_assoc]
    rfl
  unfold ofStyle
  rw [htext, Text.pieces_append_cons rfl, List.filterMap_append]

/-- Of the pieces that declare a name, the last one decides. -/
lemma last?_ofStyle {front behind : List (List Char)} {piece : List Char}
    (hpieces : pieces text = front ++ piece :: behind) (hname : name ≠ "")
    (hpiece : Declares piece name value) (hlast : ∀ q ∈ behind, ∀ w, ¬ Declares q name w) :
    Keyed.last? (ofStyle text.toList) name = some value := by
  have hnone : Keyed.last? (behind.filterMap ofPiece?) name = none := by
    rw [Keyed.last?_eq_none_iff]
    rintro ⟨k, w⟩ hmem rfl
    obtain ⟨q, hq, hread⟩ := List.mem_filterMap.mp hmem
    exact hlast q hq w (ofPiece?_eq_some_iff.mp hread).2
  unfold ofStyle
  rw [show Text.pieces (· == ';') text.toList = _ from hpieces, List.filterMap_append,
    List.filterMap_cons_some (ofPiece?_eq_some_iff.mpr ⟨hname, hpiece⟩), Keyed.last?_append,
    Keyed.last?_cons, hnone, Option.none_or, if_pos rfl, Option.some_or]

/-! ## Calls -/

/-- A way of making declarations: of one value, or of a style text. -/
inductive Call where
  | set (name value : String)
  | style (text : String)

namespace Call

/-- The declarations after a call. -/
def run (d : Declarations) : Call → Declarations
  | set name value => d.set name value
  | style text => d.addStyle text

/-- What a call writes, in order. -/
def writes : Call → List (String × String)
  | set name value => [(name, value)]
  | style text => ofStyle text.toList

end Call

/-- A call writes its values one after the other. -/
lemma run_eq_record (d : Declarations) (call : Call) : call.run d = d.record call.writes := by
  cases call <;> rfl

/-- What is written one after the other may be written at once. -/
lemma record_append (d : Declarations) (xs ys : List (String × String)) :
    d.record (xs ++ ys) = (d.record xs).record ys := List.foldl_append

/-- The last of trimmed values is the last value, trimmed. -/
lemma last?_map_trim (xs : List (String × String)) (k : String) :
    Keyed.last? (xs.map fun x => (x.1, Text.trimString x.2)) k =
      (Keyed.last? xs k).map Text.trimString := by
  induction xs with
  | nil => rfl
  | cons x xs ih =>
    rw [List.map_cons, Keyed.last?_cons, Keyed.last?_cons, ih]
    cases Keyed.last? xs k with
    | some v => rfl
    | none => by_cases hx : x.1 = k <;> simp [hx]

/-- Under a name stands the last value that is written, trimmed, or what stood there before. -/
lemma get?_record (d : Declarations) (xs : List (String × String)) (k : String) :
    (d.record xs).get? k = ((Keyed.last? xs k).map Text.trimString).or (d.get? k) := by
  unfold get?
  rw [entries_record, Keyed.get?_foldl_put, last?_map_trim]

/-- The declarations after a row of calls. -/
def after (calls : List Call) : Declarations := calls.foldl Call.run empty

/-- What a row of calls writes. -/
def written (calls : List Call) : List (String × String) := calls.flatMap Call.writes

/-- What is declared after calls is what they write. -/
lemma after_eq_record (calls : List Call) : after calls = empty.record (written calls) := by
  have hrun : ∀ d : Declarations, calls.foldl Call.run d = d.record (written calls) := by
    unfold written
    induction calls with
    | nil => exact fun _ => rfl
    | cons call calls ih =>
      intro d
      rw [List.foldl_cons, ih, List.flatMap_cons, record_append, run_eq_record]
  exact hrun empty

/-- Names stand in the order in which they were first written. -/
lemma names_after (calls : List Call) :
    Keyed.names (after calls).entries = ((written calls).map (·.1)).eraseDups := by
  rw [after_eq_record, entries_record]
  exact (Keyed.names_foldl_put _).trans (by rw [List.map_map]; rfl)

/-- Names are distinct. -/
lemma distinct_after (calls : List Call) : (after calls).Distinct := by
  rw [after_eq_record]
  exact List.foldlRecOn (motive := Distinct) (written calls) _ List.nodup_nil
    fun _ h x _ => h.set x.1 x.2

/-- Under a name stands the last value that was written, trimmed. -/
lemma get?_after (calls : List Call) (k : String) :
    (after calls).get? k = (Keyed.last? (written calls) k).map Text.trimString := by
  rw [after_eq_record, get?_record]
  exact Option.or_none

/-- Two style texts with a semicolon between them are made one after the other. -/
lemma addStyle_append (d : Declarations) (a b : String) :
    d.addStyle (a ++ ";" ++ b) = (d.addStyle a).addStyle b := by
  change d.record (ofStyle (a ++ ";" ++ b).toList) = _
  rw [ofStyle_append, record_append]
  rfl

/-- A name has the value of the last piece that declares it. -/
lemma get?_addStyle (d : Declarations) {front behind : List (List Char)} {piece : List Char}
    (hpieces : pieces text = front ++ piece :: behind) (hname : name ≠ "")
    (hpiece : Declares piece name value) (hlast : ∀ q ∈ behind, ∀ w, ¬ Declares q name w) :
    (d.addStyle text).get? name = some value := by
  have hwritten := last?_ofStyle hpieces hname hpiece hlast
  have htrimmed := trimString_of_mem_ofStyle (Keyed.mem_of_last? hwritten)
  change (d.record (ofStyle text.toList)).get? name = some value
  rw [get?_record, hwritten, Option.map_some, Option.some_or]
  exact congrArg some htrimmed

/-- A style text in which no piece declares anything changes nothing. -/
lemma addStyle_of_declares_nothing (d : Declarations)
    (h : ∀ piece ∈ pieces text, ∀ k v, Declares piece k v → k = "") : d.addStyle text = d := by
  have hnone : ofStyle text.toList = [] := by
    refine List.eq_nil_iff_forall_not_mem.mpr fun x hx => ?_
    obtain ⟨hname, piece, hpiece, hdeclares⟩ := mem_ofStyle_iff.mp hx
    exact hname (h piece hpiece x.1 x.2 hdeclares)
  change d.record (ofStyle text.toList) = d
  rw [hnone]
  rfl

/-- After a row of calls, the names are distinct and stand in the order in which they were first
written, each with its last value, trimmed.  A style text writes a name exactly if the name is not
empty and a piece declares it, and the last such piece decides; texts with a semicolon between them
are made one after the other, and pieces that declare nothing have no effect. -/
theorem calls_make_ordered_map :
    (∀ calls : List Call, (after calls).Distinct ∧
      Keyed.names (after calls).entries = ((written calls).map (·.1)).eraseDups ∧
      ∀ k, (after calls).get? k = (Keyed.last? (written calls) k).map Text.trimString) ∧
    (∀ (d : Declarations) (a b : String),
      d.addStyle (a ++ ";" ++ b) = (d.addStyle a).addStyle b) ∧
    (∀ (text k : String), k ∈ (Call.style text).writes.map (·.1) ↔
      k ≠ "" ∧ ∃ piece ∈ pieces text, ∃ v, Declares piece k v) ∧
    (∀ (d : Declarations) (text k v : String) (front behind : List (List Char)) (piece : List Char),
      pieces text = front ++ piece :: behind → k ≠ "" → Declares piece k v →
      (∀ q ∈ behind, ∀ w, ¬ Declares q k w) → (d.addStyle text).get? k = some v) ∧
    ∀ (d : Declarations) (text : String),
      (∀ piece ∈ pieces text, ∀ k v, Declares piece k v → k = "") → d.addStyle text = d := by
  refine ⟨fun calls => ⟨distinct_after calls, names_after calls, get?_after calls⟩,
    addStyle_append, fun text k => ?_, ?_, fun d text => addStyle_of_declares_nothing d⟩
  · rw [List.mem_map]
    constructor
    · rintro ⟨⟨k, v⟩, hmem, rfl⟩
      obtain ⟨hname, piece, hpiece, hdeclares⟩ := mem_ofStyle_iff.mp hmem
      exact ⟨hname, piece, hpiece, v, hdeclares⟩
    · rintro ⟨hname, piece, hpiece, v, hdeclares⟩
      exact ⟨(k, v), mem_ofStyle_iff.mpr ⟨hname, piece, hpiece, hdeclares⟩, rfl⟩
  · exact fun d text k v front behind piece hpieces hname hpiece hlast =>
      get?_addStyle d hpieces hname hpiece hlast

/-- A piece for the empty name stands behind two pieces for one name, of which the second one
decides; texts without a colon, a name or a value are passed over. -/
theorem calls_make_ordered_map_fill :
    (pieces "Fill: red;fill: blue !important;:x" =
      ["Fill: red".toList] ++ "fill: blue !important".toList :: [":x".toList] ∧
      "fill" ≠ "" ∧ Declares "fill: blue !important".toList "fill" "blue" ∧
      (∀ q ∈ [":x".toList], ∀ w, ¬ Declares q "fill" w) ∧
      (empty.addStyle "Fill: red;fill: blue !important;:x").get? "fill" = some "blue") ∧
    (∀ piece ∈ pieces "red;:x;fill: !important", ∀ k v, Declares piece k v → k = "") ∧
      empty.addStyle "red;:x;fill: !important" = empty := by
  obtain ⟨-, -, -, hlast, hnothing⟩ := calls_make_ordered_map
  have hpieces : pieces "Fill: red;fill: blue !important;:x" =
      ["Fill: red".toList] ++ "fill: blue !important".toList :: [":x".toList] := rfl
  have hdeclares : Declares "fill: blue !important".toList "fill" "blue" :=
    (ofPiece?_eq_some_iff.mp (by decide +kernel)).2
  have hbehind : ∀ q ∈ [":x".toList], ∀ w, ¬ Declares q "fill" w := by
    intro q hq w h
    obtain rfl := List.mem_singleton.mp hq
    have hread := ofPiece?_eq_some_iff.mpr ⟨by decide, h⟩
    cases hread
  have hnone : ∀ piece ∈ pieces "red;:x;fill: !important", ∀ k v, Declares piece k v → k = "" := by
    have hread : ∀ piece ∈ pieces "red;:x;fill: !important", ofPiece? piece = none := by
      decide +kernel
    intro piece hpiece k v h
    by_contra hname
    have hsome := ofPiece?_eq_some_iff.mpr ⟨hname, h⟩
    rw [hread piece hpiece] at hsome
    cases hsome
  exact ⟨⟨hpieces, by decide, hdeclares, hbehind,
    hlast empty _ _ _ _ _ _ hpieces (by decide) hdeclares hbehind⟩, hnone, hnothing empty _ hnone⟩

/-- A piece that declares a value for the empty name writes nothing. -/
theorem emptyName_not_written :
    (∃ piece ∈ pieces ":red", ∃ v, Declares piece "" v) ∧
      "" ∉ (Call.style ":red").writes.map (·.1) ∧ (empty.addStyle ":red").get? "" = none := by
  refine ⟨⟨":red".toList, List.mem_singleton_self _, "red", [], "red".toList, rfl, ?_, rfl, ?_, ?_⟩,
    by decide +kernel, by decide +kernel⟩
  · exact List.not_mem_nil
  · exact isCut_iff.mpr (by decide +kernel)
  · decide

end Declarations

end SvgDisplayList
