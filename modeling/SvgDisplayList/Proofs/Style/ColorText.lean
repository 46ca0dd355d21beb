import SvgDisplayList.Proofs.Style.Share
import SvgDisplayList.Proofs.Text.Pieces
import SvgDisplayList.Proofs.Text.Trim

/-!
# Texts that are colours

A colour is one component: a name, a hexadecimal number or a function of colours.  So a text that
starts with `url(` is no colour, whatever comes behind (`AlphaColor.ofChars?_of_reference?`), and
neither is a word that is not the name of one.  Hence a text that denotes a colour is read as that
colour where a paint is expected (`PaintSource.ofChars?_of_color`), and not as one of the words and
references that are tried before.
-/

namespace SvgDisplayList

/-! ## Letters -/

/-- A letter is not a character that is none. -/
lemma ne_of_isAlpha {c d : Char} (hc : c.isAlpha = true) (hd : d.isAlpha = false) : c ≠ d := by
  rintro rfl
  rw [hc] at hd
  cases hd

/-- A letter is not a digit. -/
lemma not_isDigit_of_isAlpha {c : Char} (h : c.isAlpha = true) : c.isDigit = false := by
  simp only [Char.isAlpha, Char.isUpper, Char.isLower, Char.isDigit, ge_iff_le, Bool.or_eq_true,
    Bool.and_eq_true, decide_eq_true_eq, Bool.and_eq_false_iff, decide_eq_false_iff_not,
    UInt32.le_iff_toNat_le] at h ⊢
  simp at h ⊢
  omega

/-- A letter is not a blank. -/
lemma not_isBlank_of_isAlpha {c : Char} (h : c.isAlpha = true) : Text.isBlank c = false := by
  simp only [Char.isAlpha, Char.isUpper, Char.isLower, ge_iff_le, Bool.or_eq_true,
    Bool.and_eq_true, decide_eq_true_eq, UInt32.le_iff_toNat_le] at h
  simp [Text.isBlank] at h ⊢
  omega

/-- What is a letter in lower case is one before. -/
lemma isAlpha_of_toLower {c : Char} (h : c.toLower.isAlpha = true) : c.isAlpha = true := by
  by_cases hupper : c.isUpper = true
  · unfold Char.isAlpha
    rw [hupper, Bool.true_or]
  · unfold Char.toLower at h
    split_ifs at h with hle
    · refine absurd ?_ hupper
      simpa [Char.isUpper] using hle
    · exact h

/-- A bracket in lower case is a bracket before. -/
lemma eq_of_toLower_eq_bracket {c : Char} (h : c.toLower = '(') : c = '(' := by
  unfold Char.toLower at h
  split_ifs at h with hupper
  · have hval : c.val + ('a'.val - 'A'.val) = '('.val := congrArg Char.val h
    have hc : c.val = '('.val - ('a'.val - 'A'.val) := by rw [← hval, UInt32.add_sub_cancel]
    rw [hc] at hupper
    exact absurd hupper (by decide)
  · exact h

/-- What is a text of letters up to their case is one of letters. -/
lemma isAlpha_of_sameIgnoringCase {cs word : List Char} (h : Text.sameIgnoringCase cs word = true)
    (hword : (Text.lower word).all Char.isAlpha = true) : ∀ c ∈ cs, c.isAlpha = true := by
  intro c hc
  have hlower : Text.lower cs = Text.lower word := beq_iff_eq.mp h
  rw [← hlower] at hword
  exact isAlpha_of_toLower (List.all_eq_true.mp hword _ (List.mem_map_of_mem hc))

namespace Css

variable {c : Char} {w cs rest : List Char} {n : String}

/-- A text ends or goes on with an opening bracket. -/
def EndsWord (rest : List Char) : Prop := rest = [] ∨ ∃ r, rest = '(' :: r

/-- Letters are read as a name up to where the word ends. -/
lemma nameFrom_letters (hw : ∀ c ∈ w, c.isAlpha = true) (hrest : EndsWord rest) {turns : Nat}
    (hturns : w.length ≤ turns) : nameFrom turns (w ++ rest) = (w, rest) := by
  induction w generalizing turns with
  | nil =>
    rcases hrest with rfl | ⟨r, rfl⟩
    · cases turns <;> rfl
    · cases turns <;> rfl
  | cons c w ih =>
    obtain ⟨hc, hw⟩ := List.forall_mem_cons.mp hw
    obtain ⟨turns, rfl⟩ : ∃ k, turns = k + 1 := ⟨turns - 1, by simp at hturns; omega⟩
    have hname : isNameChar c = true := by
      unfold isNameChar Char.isAlphanum
      rw [hc]
      rfl
    have hzero : c ≠ '\x00' := ne_of_isAlpha hc (by decide)
    have hslash : c ≠ '\\' := ne_of_isAlpha hc (by decide)
    rw [List.cons_append, nameFrom]
    · simp [hname, ih hw (Nat.le_of_succ_le_succ hturns), hzero]
    · exact hslash

/-- The token of a word, and the text behind it: a function with its bracket, or a name. -/
def wordToken (word : List Char) : List Char → Token × List Char
  | '(' :: r => (.function (String.ofList word), r)
  | r => (.ident (String.ofList word), r)

/-- A word of letters is the first token of a text. -/
lemma next_letters (hc : c.isAlpha = true) (hw : ∀ c ∈ w, c.isAlpha = true)
    (hrest : EndsWord rest) : next c (w ++ rest) =
      (some (wordToken (c :: w) rest).1, (wordToken (c :: w) rest).2) := by
  have hne : ∀ d : Char, d.isAlpha = false → c ≠ d := fun d hd => ne_of_isAlpha hc hd
  have hspace : isSpace c = false := by
    simp [isSpace, hne ' ' (by decide), hne '\t' (by decide), hne '\n' (by decide),
      hne '\r' (by decide), hne '\x0c' (by decide)]
  have hdigits : startsDigits (c :: (w ++ rest)) = false := by
    unfold startsDigits
    split
    · rename_i heq
      exact absurd (List.cons.inj heq).1 (hne '.' (by decide))
    · rename_i heq
      exact (List.cons.inj heq).1 ▸ not_isDigit_of_isAlpha hc
    · rfl
  have hident : startsIdent (c :: (w ++ rest)) = true := by
    unfold startsIdent
    split
    · rename_i heq
      exact absurd (List.cons.inj heq).1 (hne '-' (by decide))
    · rename_i heq
      exact absurd (List.cons.inj heq).1 (hne '\\' (by decide))
    · rename_i heq
      obtain ⟨rfl, -⟩ := List.cons.inj heq
      unfold isNameStart
      rw [hc]
      rfl
    · contradiction
  have hname : name (c :: (w ++ rest)) = (String.ofList (c :: w), rest) := by
    unfold name
    have hlength : (c :: w).length ≤ (c :: w ++ rest).length + 1 := by
      rw [List.length_append]
      omega
    rw [← List.cons_append, nameFrom_letters (List.forall_mem_cons.mpr ⟨hc, hw⟩) hrest hlength]
  have hlike : identLike (c :: (w ++ rest)) = wordToken (c :: w) rest := by
    unfold identLike
    rw [hname]
    rcases hrest with rfl | ⟨r, rfl⟩ <;> rfl
  unfold next
  simp only [hspace, hdigits, hident, hlike, Bool.false_eq_true, if_false, if_true, beq_iff_eq,
    hne '/' (by decide), hne '"' (by decide), hne '\'' (by decide), hne '#' (by decide),
    hne '+' (by decide), hne '-' (by decide), Bool.and_eq_true, Bool.or_eq_true, false_and, or_self]

/-- A word of letters is the only component of its text. -/
lemma components_letters (hne : w ≠ []) (hw : ∀ c ∈ w, c.isAlpha = true) :
    components w = [.token (.ident (String.ofList w))] := by
  obtain ⟨c, w, rfl⟩ := List.exists_cons_of_ne_nil hne
  obtain ⟨hc, hw⟩ := List.forall_mem_cons.mp hw
  have hnext := next_letters hc hw (Or.inl rfl)
  rw [List.append_nil] at hnext
  have htokens : tokens (c :: w) = [.ident (String.ofList (c :: w))] := by
    unfold tokens
    rw [List.length_cons, tokensFrom, hnext]
    cases w <;> rfl
  unfold components
  rw [htokens]
  rfl

/-! ## Functions -/

/-- The components under construction start with a function, which is still open or stands
outside. -/
def Nesting.StartsWith (name : String) (s : Nesting) : Prop :=
  (s.outside = [] ∧ ∃ os o, s.opened = os ++ [o] ∧ o.function? = some name) ∨
    ∃ xs arguments, s.outside = xs ++ [.call name arguments]

/-- A function becomes a call when its block is closed. -/
lemma OpenBlock.close_of_function {o : OpenBlock} (h : o.function? = some n) :
    o.close = .call n o.content.reverse := by
  unfold close
  rw [h]

/-- The outermost open block is closed last. -/
lemma Nesting.closeAll_append {o : OpenBlock} (h : o.function? = some n) (os : List OpenBlock)
    (inner? : Option Component) :
    ∃ arguments, closeAll inner? (os ++ [o]) = some (.call n arguments) := by
  induction os generalizing inner? with
  | nil => exact ⟨_, congrArg some (OpenBlock.close_of_function h)⟩
  | cons o' os ih => exact ih _

namespace Nesting.StartsWith

variable {s : Nesting}

/-- A block that is opened does not come first. -/
lemma push (h : s.StartsWith n) (o : OpenBlock) :
    ({ s with opened := o :: s.opened } : Nesting).StartsWith n := by
  rcases h with ⟨houtside, os, o', hopened, hfunction⟩ | houtside
  · exact Or.inl ⟨houtside, o :: os, o', by rw [hopened, List.cons_append], hfunction⟩
  · exact Or.inr houtside

/-- A component that is added does not come first. -/
lemma add (h : s.StartsWith n) (x : Component) : (s.add x).StartsWith n := by
  unfold Nesting.add
  rcases h with ⟨houtside, os, o, hopened, hfunction⟩ | ⟨xs, arguments, houtside⟩
  · left
    cases os with
    | nil => rw [hopened]; exact ⟨houtside, [], _, rfl, hfunction⟩
    | cons o' os => rw [hopened]; exact ⟨houtside, _ :: os, o, rfl, hfunction⟩
  · right
    split
    · exact ⟨xs, arguments, houtside⟩
    · exact ⟨x :: xs, arguments, by rw [houtside, List.cons_append]⟩

/-- A token that is taken in does not come first. -/
lemma step (h : s.StartsWith n) (t : Token) : (s.step t).StartsWith n := by
  unfold Nesting.step
  split
  · exact h.push _
  · exact h.push _
  · split
    · rename_i o os hopened
      split_ifs
      · -- the block that is closed may be the function itself, which then stands outside
        rcases h with ⟨houtside, os', o', hopened', hfunction⟩ | houtside
        · rw [hopened'] at hopened
          cases os' with
          | nil =>
            obtain ⟨rfl, rfl⟩ := List.cons.inj hopened
            exact Or.inr ⟨[], _, by rw [← OpenBlock.close_of_function hfunction, List.nil_append,
              Nesting.add, houtside]⟩
          | cons o'' os' =>
            obtain ⟨rfl, rfl⟩ := List.cons.inj hopened
            exact add (s := ⟨os' ++ [o'], s.outside⟩) (Or.inl ⟨houtside, os', o', rfl, hfunction⟩) _
        · exact add (s := ⟨os, s.outside⟩) (Or.inr houtside) _
      · exact h.add _
    · exact h.add _
  · exact h.add _

/-- The finished components start with the function, too. -/
lemma finish (h : s.StartsWith n) : ∃ arguments r, s.finish = .call n arguments :: r := by
  unfold Nesting.finish
  rcases h with ⟨houtside, os, o, hopened, hfunction⟩ | ⟨xs, arguments, houtside⟩
  · obtain ⟨arguments, hclose⟩ := closeAll_append hfunction os none
    exact ⟨arguments, [], by rw [houtside, hopened, hclose]; rfl⟩
  · exact ⟨arguments, ((closeAll none s.opened).toList ++ xs).reverse,
      by rw [houtside, ← List.append_assoc, List.reverse_append]; rfl⟩

end Nesting.StartsWith

/-- A word of letters with an opening bracket behind it starts the components with a function. -/
lemma components_function (hne : w ≠ []) (hw : ∀ c ∈ w, c.isAlpha = true) (r : List Char) :
    ∃ arguments rest, components (w ++ '(' :: r) = .call (String.ofList w) arguments :: rest := by
  obtain ⟨c, w, rfl⟩ := List.exists_cons_of_ne_nil hne
  obtain ⟨hc, hw⟩ := List.forall_mem_cons.mp hw
  obtain ⟨ts, hts⟩ : ∃ ts,
      tokens ((c :: w) ++ '(' :: r) = .function (String.ofList (c :: w)) :: ts := by
    unfold tokens
    rw [List.cons_append, List.length_cons, tokensFrom, next_letters hc hw (Or.inr ⟨r, rfl⟩)]
    exact ⟨_, rfl⟩
  unfold components
  rw [hts, List.foldl_cons]
  refine Nesting.StartsWith.finish ?_
  have hstart : (Nesting.step ⟨[], []⟩ (.function (String.ofList (c :: w)))).StartsWith
      (String.ofList (c :: w)) := Or.inl ⟨rfl, [], _, rfl, rfl⟩
  exact List.foldlRecOn (motive := fun s : Nesting => s.StartsWith (String.ofList (c :: w))) ts _
    hstart fun _ hs t _ => hs.step t

/-! ## Words and functions that are no colours -/

/-- A word of letters is the colour of its name. -/
lemma ColorValue.ofChars?_letters (hne : w ≠ []) (hw : ∀ c ∈ w, c.isAlpha = true) :
    ofChars? w = ofName? (String.ofList (Text.lower w)) := by
  unfold ofChars?
  rw [components_letters hne hw]
  have hlowered : Reader.lowered (String.ofList w) = String.ofList (Text.lower w) := by
    unfold Reader.lowered Text.lower
    rw [String.toList_ofList]
  have hread : ∀ d, read (d + 1) [.token (.ident (String.ofList w))] =
      (ofName? (Reader.lowered (String.ofList w))).map fun v => (v, []) := fun _ => rfl
  unfold Reader.all
  dsimp only
  rw [hread, hlowered]
  cases ofName? (String.ofList (Text.lower w)) <;> rfl

/-- The function `url` gives no colour. -/
lemma ColorValue.ofChars?_url (hlower : Text.lower w = "url".toList) (r : List Char) :
    ofChars? (w ++ '(' :: r) = none := by
  have hne : w ≠ [] := by
    rintro rfl
    cases hlower
  have hsame : Text.sameIgnoringCase w "url".toList = true := beq_iff_eq.mpr (hlower.trans rfl)
  have hw := isAlpha_of_sameIgnoringCase hsame rfl
  obtain ⟨arguments, rest, hcomponents⟩ := components_function hne hw r
  have hlowered : Reader.lowered (String.ofList w) = "url" := by
    unfold Reader.lowered
    rw [String.toList_ofList, ← Text.lower, hlower]
    rfl
  have hread : ∀ d, read (d + 1) (.call (String.ofList w) arguments :: rest) = none := by
    intro d
    have hnone : function? (read d) (Reader.lowered (String.ofList w)) = none := by
      rw [hlowered]
      rfl
    rw [read]
    simp only [Reader.next, Reader.skipSpaces, hnone]
    rfl
  unfold ofChars?
  rw [hcomponents]
  unfold Reader.all
  dsimp only
  rw [hread]

end Css

namespace AlphaColor

variable {cs : List Char} {a : AlphaColor}

/-- A word of letters that names no colour of its own denotes none. -/
lemma ofChars?_of_sameIgnoringCase {word : List Char} (h : Text.sameIgnoringCase cs word = true)
    (hne : word ≠ []) (hword : (Text.lower word).all Char.isAlpha = true)
    (hname : (Css.ColorValue.ofName? (String.ofList (Text.lower word))).bind
      Css.ColorValue.toAlphaColor? = none) : ofChars? cs = none := by
  have hlower : Text.lower cs = Text.lower word := beq_iff_eq.mp h
  have hcs : cs ≠ [] := by
    rintro rfl
    exact hne (List.map_eq_nil_iff.mp hlower.symm)
  unfold ofChars?
  rw [Css.ColorValue.ofChars?_letters hcs (isAlpha_of_sameIgnoringCase h hword), hlower]
  cases hv : Css.ColorValue.ofName? (String.ofList (Text.lower word)) with
  | none => rfl
  | some v => rwa [hv] at hname

/-- A reference denotes no colour. -/
lemma ofChars?_of_reference? {id : String} {rest : List Char}
    (h : PaintSource.reference? cs = some (id, rest)) : ofChars? (Text.trim cs) = none := by
  unfold PaintSource.reference? at h
  dsimp only at h
  split_ifs at h with hurl
  have hstart : Text.lower ((Text.trim cs).take 4) = "url(".toList := by simpa using hurl
  obtain ⟨w, r, htext, hlower⟩ : ∃ w r, Text.trim cs = w ++ '(' :: r ∧
      Text.lower w = "url".toList := by
    have hparts : ((Text.trim cs).take 4).map Char.toLower = "url".toList ++ ['('] := hstart
    obtain ⟨w, b, hfour, hw, hb⟩ := List.map_eq_append_iff.mp hparts
    obtain ⟨c, rfl, hc⟩ := List.map_eq_singleton_iff.mp hb
    obtain rfl : c = '(' := eq_of_toLower_eq_bracket hc
    refine ⟨w, (Text.trim cs).drop 4, ?_, hw⟩
    rw [← List.singleton_append, ← List.append_assoc, ← hfour, List.take_append_drop]
  unfold ofChars?
  rw [htext, Css.ColorValue.ofChars?_url hlower]

end AlphaColor

/-- A text that denotes a colour asks for that colour as a paint. -/
theorem PaintSource.ofChars?_of_color {cs : List Char} {a : AlphaColor}
    (h : AlphaColor.ofChars? (Text.trim cs) = some a) : ofChars? cs = some (.color a) := by
  have hword : ∀ word : List Char, word ≠ [] → (Text.lower word).all Char.isAlpha = true →
      (Css.ColorValue.ofName? (String.ofList (Text.lower word))).bind
        Css.ColorValue.toAlphaColor? = Option.none →
      ¬ Text.sameIgnoringCase (Text.trim cs) word = true := by
    intro word hne hword hname hsame
    rw [AlphaColor.ofChars?_of_sameIgnoringCase hsame hne hword hname] at h
    cases h
  have hreference : reference? (Text.trim cs) = Option.none := by
    cases href : reference? (Text.trim cs) with
    | none => rfl
    | some r =>
      have hnone := AlphaColor.ofChars?_of_reference? href
      rw [Text.trim_trim, h] at hnone
      cases hnone
  unfold ofChars?
  dsimp only
  rw [if_neg (hword "none".toList (by decide) rfl rfl),
    if_neg (hword "currentcolor".toList (by decide) rfl rfl), hreference, h]
  rfl

/-- A reference with a colour text behind it asks for the paint of the reference, with that colour
to fall back on, but without its alpha value. -/
theorem PaintSource.ofChars?_of_reference {cs rest : List Char} {id : String} {a : AlphaColor}
    (h : reference? cs = some (id, rest)) (ha : AlphaColor.ofChars? rest = some a) :
    ofChars? cs = some (.server id (some a.color)) := by
  have hstart : Text.lower ((Text.trim cs).take 4) = "url(".toList := by
    unfold reference? at h
    dsimp only at h
    split_ifs at h with hurl
    simpa using hurl
  have hword : ∀ word : List Char, (Text.lower word).take 4 ≠ "url(".toList →
      ¬ Text.sameIgnoringCase (Text.trim cs) word = true := by
    intro word hne hsame
    refine hne ?_
    have hlower : Text.lower (Text.trim cs) = Text.lower word := beq_iff_eq.mp hsame
    rw [← hlower, ← hstart]
    exact List.map_take.symm
  have hreference : reference? (Text.trim cs) = some (id, rest) := by
    unfold reference? at h ⊢
    rwa [Text.trim_trim]
  unfold ofChars?
  dsimp only
  rw [if_neg (hword "none".toList (by decide)), if_neg (hword "currentcolor".toList (by decide)),
    hreference]
  dsimp only
  rw [ha]
  rfl

/-- An identifier without brackets, quotes and blanks is referred to as it is, with a text behind
the reference. -/
theorem PaintSource.reference?_url {c : Char} {id cs : List Char}
    (hid : ∀ d ∈ c :: id, d ≠ ')' ∧ d ≠ '"' ∧ d ≠ '\'' ∧ Text.isBlank d = false) :
    reference? ("url(#".toList ++ c :: id ++ ')' :: ' ' :: cs) =
      some (String.ofList (c :: id), Text.trim cs) := by
  have htrim : Text.trim ("url(#".toList ++ c :: id ++ ')' :: ' ' :: cs) =
      "url(".toList ++
        ('#' :: c :: id ++ ')' :: Text.dropTrailing Text.isBlank (' ' :: cs)) := by
    change Text.trim ('u' :: (['r', 'l', '(', '#'] ++ c :: id ++ ')' :: ' ' :: cs)) = _
    rw [Text.trim_cons (by decide), Text.dropTrailing_append_cons (by decide)]
    rfl
  have hall : ∀ d ∈ '#' :: c :: id, d ≠ ')' ∧ d ≠ '"' ∧ d ≠ '\'' ∧ Text.isBlank d = false :=
    List.forall_mem_cons.mpr ⟨by decide, hid⟩
  have hsplit : Text.splitAt? (· == ')')
      ('#' :: c :: id ++ ')' :: Text.dropTrailing Text.isBlank (' ' :: cs)) =
        some ('#' :: c :: id, Text.dropTrailing Text.isBlank (' ' :: cs)) :=
    Text.splitAt?_append (fun d hd => by simpa using (hall d hd).1) rfl
  have htarget : Text.trimBy (· == '\'') (Text.trimBy (· == '"') (Text.trim ('#' :: c :: id))) =
      '#' :: c :: id := by
    rw [Text.trim_eq_of_not_blank fun d hd => (hall d hd).2.2.2,
      Text.trimBy_eq_self (p := (· == '"')) fun d hd => by simpa using (hall d hd).2.1,
      Text.trimBy_eq_self fun d hd => by simpa using (hall d hd).2.2.1]
  have hrest : Text.trim (' ' :: cs) = Text.trim cs := by
    have happend := Text.trim_append (a := [' ']) (m := cs) (b := [])
      (List.forall_mem_singleton.mpr rfl) (List.forall_mem_nil _)
    rwa [List.append_nil] at happend
  have hstart : ∀ r : List Char, Text.lower (("url(".toList ++ r).take 4) = "url(".toList ∧
      ("url(".toList ++ r).drop 4 = r := fun _ => ⟨rfl, rfl⟩
  unfold reference?
  dsimp only
  rw [htrim, (hstart _).1, (hstart _).2, if_neg (by decide), hsplit]
  dsimp only
  rw [htarget, Text.trim_dropTrailing, hrest]
  rfl

end SvgDisplayList
