import SvgDisplayList.Proofs.Geometry.NumberList
import SvgDisplayList.Proofs.Text.Trim

/-!
# The language of transform lists

A transform list is written down as functions (`TransformFunction`), each a name with a list of
numbers in parentheses.  Blanks may stand around a name, and blanks and commas behind a function
(`TransformList.Spells`).  What functions denote is said by the entries of matrices: those of each
function (`TransformFunction.Denotes`), and those of a product (`Matrix.IsProduct`).

A list is read one function at a time, and what is read behind a good function does not depend on
how the function is written (`TransformList.composeFrom_writes`).  So a text that writes functions
denotes their product from left to right (`TransformList.composeFrom_eq_ok_iff`).  In every other
text functions are followed by a `TransformList.Fault`: a parenthesis is missing, a number is none,
or a name does not match its arguments.  The fault alone decides the error
(`TransformList.composeFrom_eq_error_iff`).  `Matrix.ofTransformList_language` puts both together
for whole attribute values, which may start with blanks.
-/

namespace SvgDisplayList

/-! ## Functions -/

/-- A transform function with its arguments. -/
inductive TransformFunction where
  | translate (x : Float32) (y? : Option Float32)
  | scale (x : Float32) (y? : Option Float32)
  | rotate (angle : Float32) (center? : Option Point)
  | skewX (angle : Float32)
  | skewY (angle : Float32)
  | matrix (m : Matrix)

namespace TransformFunction

/-- The name of a function. -/
def name : TransformFunction → String
  | translate .. => "translate"
  | scale .. => "scale"
  | rotate .. => "rotate"
  | skewX _ => "skewX"
  | skewY _ => "skewY"
  | matrix _ => "matrix"

/-- The names of all functions. -/
def names : List String := ["translate", "scale", "rotate", "skewX", "skewY", "matrix"]

/-- The numbers that a function is written with. -/
def arguments : TransformFunction → List Float32
  | translate x y? | scale x y? => x :: y?.toList
  | rotate angle none | skewX angle | skewY angle => [angle]
  | rotate angle (some center) => [angle, center.x, center.y]
  | matrix m => [m.a, m.b, m.c, m.d, m.e, m.f]

/-- The map of a function.  A move without a second number is horizontal, and a scaling without one
is uniform. -/
def map : TransformFunction → Matrix
  | translate x y? => .translate x (y?.getD 0)
  | scale x y? => .scale x (y?.getD x)
  | rotate angle none => .rotate angle
  | rotate angle (some center) => .rotateAbout angle center.x center.y
  | skewX angle => .skewX angle
  | skewY angle => .skewY angle
  | matrix m => m

/-- The product of some functions from left to right, so that the last one is applied first. -/
def product (m : Matrix) (fs : List TransformFunction) : Matrix :=
  fs.foldl (fun m f => m.mul f.map) m

end TransformFunction

/-! ## What functions denote -/

/-- A matrix is the product of two others.  Each entry of its linear part is made of a row of the
left one and a column of the right one, and its shift is where the left one takes the shift of the
right one. -/
structure Matrix.IsProduct (l r m : Matrix) : Prop where
  a : m.a = l.a * r.a + l.c * r.b
  b : m.b = l.b * r.a + l.d * r.b
  c : m.c = l.a * r.c + l.c * r.d
  d : m.d = l.b * r.c + l.d * r.d
  e : m.e = l.a * r.e + l.c * r.f + l.e
  f : m.f = l.b * r.e + l.d * r.f + l.f

/-- Products have these entries. -/
lemma Matrix.isProduct_iff {l r m : Matrix} : IsProduct l r m ↔ m = l.mul r := by
  constructor
  · rintro ⟨ha, hb, hc, hd, he, hf⟩
    cases m
    rw [mul, Matrix.mk.injEq]
    exact ⟨ha, hb, hc, hd, he, hf⟩
  · rintro rfl
    exact ⟨rfl, rfl, rfl, rfl, rfl, rfl⟩

namespace TransformFunction

/-- The entries of the matrix of a function.  A rotation around a point is one around the origin
between a move of the point to the origin and the move back. -/
inductive Denotes : TransformFunction → Matrix → Prop where
  | translate (x : Float32) (y? : Option Float32) :
    Denotes (.translate x y?) ⟨1, 0, 0, 1, x, y?.getD 0⟩
  | scale (x : Float32) (y? : Option Float32) :
    Denotes (.scale x y?) ⟨x, 0, 0, y?.getD x, 0, 0⟩
  | rotate (degrees : Float32) {s c : Float32} (hs : s = Angle.sin (Angle.ofDegrees degrees))
      (hc : c = Angle.cos (Angle.ofDegrees degrees)) :
    Denotes (.rotate degrees none) ⟨c, s, -s, c, 0, 0⟩
  | rotateAbout (degrees : Float32) (center : Point) {rotation moved m : Matrix}
      (hrotation : Denotes (.rotate degrees none) rotation)
      (hmoved : Matrix.IsProduct ⟨1, 0, 0, 1, center.x, center.y⟩ rotation moved)
      (hm : Matrix.IsProduct moved ⟨1, 0, 0, 1, -center.x, -center.y⟩ m) :
    Denotes (.rotate degrees (some center)) m
  | skewX (degrees : Float32) :
    Denotes (.skewX degrees) ⟨1, 0, Angle.tan (Angle.ofDegrees degrees), 1, 0, 0⟩
  | skewY (degrees : Float32) :
    Denotes (.skewY degrees) ⟨1, Angle.tan (Angle.ofDegrees degrees), 0, 1, 0, 0⟩
  | matrix (a b c d e f : Float32) : Denotes (.matrix ⟨a, b, c, d, e, f⟩) ⟨a, b, c, d, e, f⟩

/-- A function denotes its map. -/
lemma denotes_iff {f : TransformFunction} {m : Matrix} : f.Denotes m ↔ m = f.map := by
  constructor
  · intro h
    induction h with
    | translate | scale | skewX | skewY | matrix => rfl
    | rotate degrees hs hc =>
      subst hs hc
      rfl
    | rotateAbout degrees center _ hmoved hm hrotation =>
      rw [Matrix.isProduct_iff] at hmoved hm
      subst hm hmoved hrotation
      rfl
  · rintro rfl
    cases f with
    | translate x y? => exact .translate x y?
    | scale x y? => exact .scale x y?
    | rotate degrees center? =>
      cases center? with
      | none => exact .rotate degrees rfl rfl
      | some center =>
        exact .rotateAbout degrees center (.rotate degrees rfl rfl)
          (Matrix.isProduct_iff.mpr rfl) (Matrix.isProduct_iff.mpr rfl)
    | skewX degrees => exact .skewX degrees
    | skewY degrees => exact .skewY degrees
    | matrix m => exact .matrix m.a m.b m.c m.d m.e m.f

/-- What a list of functions denotes: the identity, multiplied on the right by the matrix of each
function in turn. -/
inductive DenoteAll : List TransformFunction → Matrix → Prop where
  | nil : DenoteAll [] ⟨1, 0, 0, 1, 0, 0⟩
  | concat {fs : List TransformFunction} {f : TransformFunction} {l r m : Matrix}
      (hfs : DenoteAll fs l) (hf : f.Denotes r) (hm : Matrix.IsProduct l r m) :
    DenoteAll (fs ++ [f]) m

/-- A function more is multiplied on the right. -/
lemma product_concat (m : Matrix) (fs : List TransformFunction) (f : TransformFunction) :
    product m (fs ++ [f]) = (product m fs).mul f.map := by
  unfold product
  rw [List.foldl_concat]

/-- Functions denote the product of their maps. -/
theorem denoteAll_iff {fs : List TransformFunction} {m : Matrix} :
    DenoteAll fs m ↔ m = product .identity fs := by
  constructor
  · intro h
    induction h with
    | nil => rfl
    | concat _ hf hm ih =>
      rw [denotes_iff] at hf
      rw [Matrix.isProduct_iff] at hm
      subst hm hf ih
      exact (product_concat ..).symm
  · rintro rfl
    induction fs using List.reverseRecOn with
    | nil => exact .nil
    | append_singleton fs f ih =>
      exact .concat ih (denotes_iff.mpr rfl) (Matrix.isProduct_iff.mpr (product_concat ..))

end TransformFunction

namespace TransformList

open TransformFunction (names)

variable {name : String} {xs : List Float32} {m : Matrix} {e : TransformError}

/-- A name has a map for the arguments of its functions. -/
lemma matrixOf_function (f : TransformFunction) : matrixOf f.name f.arguments = .ok f.map := by
  cases f with
  | translate x y? | scale x y? => cases y? <;> rfl
  | rotate angle center? => cases center? <;> rfl
  | skewX | skewY | matrix => rfl

/-- A name has a map for the arguments of its functions only. -/
lemma exists_function (h : matrixOf name xs = .ok m) :
    ∃ f : TransformFunction, f.name = name ∧ f.arguments = xs ∧ m = f.map := by
  unfold matrixOf at h
  split at h
  · cases h; exact ⟨.translate _ none, rfl, rfl, rfl⟩
  · cases h; exact ⟨.translate _ (some _), rfl, rfl, rfl⟩
  · cases h; exact ⟨.scale _ none, rfl, rfl, rfl⟩
  · cases h; exact ⟨.scale _ (some _), rfl, rfl, rfl⟩
  · cases h; exact ⟨.rotate _ none, rfl, rfl, rfl⟩
  · cases h; exact ⟨.rotate _ (some ⟨_, _⟩), rfl, rfl, rfl⟩
  · cases h; exact ⟨.skewX _, rfl, rfl, rfl⟩
  · cases h; exact ⟨.skewY _, rfl, rfl, rfl⟩
  · cases h; exact ⟨.matrix ⟨_, _, _, _, _, _⟩, rfl, rfl, rfl⟩
  · cases h
  · split_ifs at h

/-- The name of a function is one of the names. -/
lemma name_mem_names (f : TransformFunction) : f.name ∈ names := by
  cases f <;> simp [TransformFunction.name, names]

/-- As many numbers as a function has are the arguments of a function of that name. -/
lemma exists_arguments (f : TransformFunction) (h : f.arguments.length = xs.length) :
    ∃ g : TransformFunction, g.name = f.name ∧ g.arguments = xs := by
  cases f with
  | translate x y? =>
    cases y? with
    | none =>
      obtain ⟨x, rfl⟩ := List.length_eq_one_iff.mp h.symm
      exact ⟨.translate x none, rfl, rfl⟩
    | some y =>
      obtain ⟨x, y, rfl⟩ := List.length_eq_two.mp h.symm
      exact ⟨.translate x (some y), rfl, rfl⟩
  | scale x y? =>
    cases y? with
    | none =>
      obtain ⟨x, rfl⟩ := List.length_eq_one_iff.mp h.symm
      exact ⟨.scale x none, rfl, rfl⟩
    | some y =>
      obtain ⟨x, y, rfl⟩ := List.length_eq_two.mp h.symm
      exact ⟨.scale x (some y), rfl, rfl⟩
  | rotate angle center? =>
    cases center? with
    | none =>
      obtain ⟨angle, rfl⟩ := List.length_eq_one_iff.mp h.symm
      exact ⟨.rotate angle none, rfl, rfl⟩
    | some center =>
      obtain ⟨angle, x, y, rfl⟩ := List.length_eq_three.mp h.symm
      exact ⟨.rotate angle (some ⟨x, y⟩), rfl, rfl⟩
  | skewX =>
    obtain ⟨angle, rfl⟩ := List.length_eq_one_iff.mp h.symm
    exact ⟨.skewX angle, rfl, rfl⟩
  | skewY =>
    obtain ⟨angle, rfl⟩ := List.length_eq_one_iff.mp h.symm
    exact ⟨.skewY angle, rfl, rfl⟩
  | matrix =>
    match xs, h with
    | [a, b, c, d, e, f], _ => exact ⟨.matrix ⟨a, b, c, d, e, f⟩, rfl, rfl⟩

/-- What is wrong with a name and its arguments. -/
inductive Mismatch (name : String) (xs : List Float32) : TransformError → Prop where
  | noName (h : name = "") : Mismatch name xs .malformed
  | unknown (hne : name ≠ "") (h : name ∉ names) : Mismatch name xs (.unknownFunction name)
  | count (h : name ∈ names)
      (hcount : ∀ f : TransformFunction, f.name = name → f.arguments.length ≠ xs.length) :
      Mismatch name xs (.invalidArguments name)

/-- One thing at most is wrong with a name and its arguments. -/
lemma Mismatch.unique {e' : TransformError} (h : Mismatch name xs e) (h' : Mismatch name xs e') :
    e = e' := by
  have hempty : "" ∉ names := by decide
  cases h <;> cases h' <;> first | rfl | simp_all

/-- A name has no map for arguments that do not match it. -/
lemma matrixOf_eq_error_iff : matrixOf name xs = .error e ↔ Mismatch name xs e := by
  have hmismatch {e : TransformError} (h : matrixOf name xs = .error e) : Mismatch name xs e := by
    have hcount (f : TransformFunction) (hf : f.name = name) :
        f.arguments.length ≠ xs.length := by
      intro hlength
      obtain ⟨g, hg, rfl⟩ := exists_arguments f hlength
      rw [← hf, ← hg, matrixOf_function] at h
      cases h
    unfold matrixOf at h
    split at h
    case h_10 => cases h; exact .noName rfl
    case h_11 =>
      split_ifs at h with hmem
      · cases h; exact .count hmem hcount
      · cases h; exact .unknown (by assumption) hmem
    all_goals cases h
  constructor
  · exact hmismatch
  · intro h
    cases hmatrix : matrixOf name xs with
    | error e' => rw [(hmismatch hmatrix).unique h]
    | ok m =>
      obtain ⟨f, rfl, rfl, -⟩ := exists_function hmatrix
      cases h with
      | noName h => exact absurd (h ▸ name_mem_names f) (by decide)
      | unknown _ h => exact absurd (name_mem_names f) h
      | count _ hcount => exact absurd rfl (hcount f rfl)

/-! ## Reading one function -/

variable {n : Matrix} {cs word arguments rest : List Char}

/-- A text is cut at the first occurrence of a character. -/
lemma splitAt?_eq_some {c : Char} (h : c ∉ cs) :
    Text.splitAt? (· == c) (cs ++ c :: rest) = some (cs, rest) := by
  refine Text.splitAt?_append (fun d hd => ?_) (beq_self_eq_true c)
  rw [beq_eq_false_iff_ne]
  rintro rfl
  exact h hd

/-- A text without a character is not cut at it. -/
lemma splitAt?_eq_none {c : Char} (h : c ∉ cs) : Text.splitAt? (· == c) cs = none := by
  induction cs with
  | nil => rfl
  | cons d cs ih =>
    obtain ⟨hd, hcs⟩ := List.mem_cons.not.mp h |> not_or.mp
    rw [Text.splitAt?, if_neg (by simpa using Ne.symm hd), ih hcs]
    rfl

/-- A text without an opening parenthesis is no function. -/
lemma composeFrom_noOpening (hne : cs ≠ []) (h : '(' ∉ cs) :
    composeFrom m cs = .error .malformed := by
  have hnext : next? cs = none := by
    unfold next?
    split
    · rfl
    · rename_i hsplit
      rw [splitAt?_eq_none h] at hsplit
      cases hsplit
  rw [composeFrom, if_neg (by simpa using hne), hnext]

/-- A text without a closing parenthesis behind an opening one is no function. -/
lemma composeFrom_noClosing (hword : '(' ∉ word) (h : ')' ∉ cs) :
    composeFrom m (word ++ '(' :: cs) = .error .malformed := by
  have hopening := @splitAt?_eq_some _ cs _ hword
  have hnext : next? (word ++ '(' :: cs) = none := by
    unfold next?
    split
    · rfl
    · rename_i hsplit
      obtain ⟨rfl, rfl⟩ := Prod.mk.inj (Option.some.inj (hopening.symm.trans hsplit))
      split
      · rfl
      · rename_i hsplit'
        rw [splitAt?_eq_none h] at hsplit'
        cases hsplit'
  rw [composeFrom, if_neg (by simp), hnext]

/-- A text with a pair of parentheses is a function and what is behind it. -/
lemma exists_next (hword : '(' ∉ word) (harguments : ')' ∉ arguments) :
    ∃ behind, next? (word ++ '(' :: (arguments ++ ')' :: rest)) =
      some (⟨Text.trim word, arguments⟩, behind) ∧ behind.1 = rest.dropWhile isListSeparator := by
  have hnext := next?_eq (@splitAt?_eq_some _ (arguments ++ ')' :: rest) _ hword)
    (@splitAt?_eq_some _ rest _ harguments)
  obtain ⟨⟨call, behind⟩, hcall, heq⟩ := Option.map_eq_some_iff.mp hnext
  obtain ⟨rfl, hbehind⟩ := Prod.mk.inj heq
  exact ⟨behind, hcall, hbehind⟩

/-- Behind a function that has a map, reading goes on. -/
lemma composeFrom_ok (hword : '(' ∉ word) (harguments : ')' ∉ arguments)
    (h : Call.matrix ⟨Text.trim word, arguments⟩ = .ok n) :
    composeFrom m (word ++ '(' :: (arguments ++ ')' :: rest)) =
      composeFrom (m.mul n) (rest.dropWhile isListSeparator) := by
  obtain ⟨behind, hnext, hbehind⟩ := @exists_next _ _ rest hword harguments
  rw [composeFrom, if_neg (by simp)]
  simp only [hnext, h, hbehind]

/-- A function that has no map ends the reading. -/
lemma composeFrom_error (hword : '(' ∉ word) (harguments : ')' ∉ arguments)
    (h : Call.matrix ⟨Text.trim word, arguments⟩ = .error e) :
    composeFrom m (word ++ '(' :: (arguments ++ ')' :: rest)) = .error e := by
  obtain ⟨behind, hnext, -⟩ := @exists_next _ _ rest hword harguments
  rw [composeFrom, if_neg (by simp)]
  simp only [hnext, h]

/-- What a function is written with, if its numbers are numbers. -/
lemma matrix_eq (h : IsNumberList xs arguments) :
    Call.matrix ⟨Text.trim word, arguments⟩ = matrixOf (String.ofList (Text.trim word)) xs := by
  unfold Call.matrix
  simp only [h.numberList?_eq]

/-! ## Writing functions -/

/-- A text writes a function: its name, with blanks around it, and its numbers in parentheses. -/
inductive Writes (f : TransformFunction) : List Char → Prop where
  | intro {before after arguments : List Char} (hbefore : Text.IsBlankRun before)
      (hafter : Text.IsBlankRun after) (harguments : IsNumberList f.arguments arguments) :
      Writes f (before ++ (f.name.toList ++ after) ++ '(' :: (arguments ++ [')']))

/-- A text writes functions one after the other, with blanks and commas behind each of them. -/
inductive Spells : List TransformFunction → List Char → Prop where
  | nil : Spells [] []
  | cons {f : TransformFunction} {fs : List TransformFunction} {written gap rest : List Char}
      (hwritten : Writes f written) (hgap : ∀ c ∈ gap, isListSeparator c = true)
      (hrest : Spells fs rest) : Spells (f :: fs) (written ++ (gap ++ rest))

/-- What is wrong at the start of a text, as far as its first function goes: a parenthesis is
missing, a number is none, or the name and the numbers do not match. -/
inductive Fault : List Char → TransformError → Prop where
  | noOpening {cs : List Char} (h : '(' ∉ cs) : Fault cs .malformed
  | noClosing {word cs : List Char} (hword : '(' ∉ word) (h : ')' ∉ cs) :
      Fault (word ++ '(' :: cs) .malformed
  | badNumber {word arguments rest : List Char} (hword : '(' ∉ word) (harguments : ')' ∉ arguments)
      (h : ∃ w ∈ Text.words isListSeparator arguments, finiteNumber? w = none) :
      Fault (word ++ '(' :: (arguments ++ ')' :: rest))
        (.invalidArguments (String.ofList (Text.trim word)))
  | mismatch {word arguments rest : List Char} {xs : List Float32} {e : TransformError}
      (hword : '(' ∉ word) (harguments : ')' ∉ arguments) (hnumbers : IsNumberList xs arguments)
      (h : Mismatch (String.ofList (Text.trim word)) xs e) :
      Fault (word ++ '(' :: (arguments ++ ')' :: rest)) e

section

variable {f : TransformFunction} {fs : List TransformFunction} {written front : List Char}

/-- A blank separates. -/
lemma isListSeparator_of_isBlank {c : Char} (h : Text.isBlank c = true) :
    isListSeparator c = true := by
  unfold isListSeparator
  rw [h, Bool.true_or]

/-- A name is not empty, and has neither separators nor parentheses. -/
lemma name_spec (f : TransformFunction) :
    f.name.toList ≠ [] ∧ ∀ c ∈ f.name.toList, isListSeparator c = false ∧ c ≠ '(' := by
  have hall : ∀ name ∈ names, name.toList ≠ [] ∧
      ∀ c ∈ name.toList, isListSeparator c = false ∧ c ≠ '(' := by
    simp [names, isListSeparator, Text.isBlank]
  exact hall f.name (name_mem_names f)

/-- A name is trimmed. -/
lemma trim_name (f : TransformFunction) : Text.trim f.name.toList = f.name.toList := by
  refine Text.trim_eq_of_not_blank fun c hc => ?_
  obtain ⟨hseparator, -⟩ := (name_spec f).2 c hc
  exact (Bool.or_eq_false_iff.mp hseparator).1

/-- A function that is written is read, and reading goes on behind the separators. -/
lemma composeFrom_writes (h : Writes f written) :
    composeFrom m (written ++ rest) =
      composeFrom (m.mul f.map) (rest.dropWhile isListSeparator) := by
  cases h with
  | @intro before after arguments hbefore hafter harguments =>
    have hname : '(' ∉ f.name.toList := fun hmem => ((name_spec f).2 _ hmem).2 rfl
    have hblank {cs : List Char} (hcs : Text.IsBlankRun cs) : '(' ∉ cs := by
      intro hmem
      exact absurd (hcs _ hmem) (by decide)
    have hword : '(' ∉ before ++ (f.name.toList ++ after) := by
      simp only [List.mem_append, not_or]
      exact ⟨hblank hbefore, hname, hblank hafter⟩
    have hclosing : ')' ∉ arguments := fun hmem => (harguments.ne_parenthesis _ hmem).2 rfl
    have htext : before ++ (f.name.toList ++ after) ++ '(' :: (arguments ++ [')']) ++ rest =
        before ++ (f.name.toList ++ after) ++ '(' :: (arguments ++ ')' :: rest) := by
      simp
    rw [htext]
    refine composeFrom_ok hword hclosing ?_
    rw [matrix_eq harguments, Text.trim_append hbefore hafter, trim_name, String.ofList_toList,
      matrixOf_function]

/-- Separators in front of the first function can be dropped, whether all of them are or blanks
only. -/
lemma Spells.dropWhile (h : Spells fs cs) {p : Char → Bool}
    (hblank : ∀ c, Text.isBlank c = true → p c = true)
    (hp : ∀ c, p c = true → isListSeparator c = true) : Spells fs (cs.dropWhile p) := by
  cases h with
  | nil => exact .nil
  | @cons f fs _ gap rest hwritten hgap hrest =>
    cases hwritten with
    | @intro before after arguments hbefore hafter harguments =>
      obtain ⟨c, name, hname⟩ := List.exists_cons_of_ne_nil (name_spec f).1
      obtain ⟨hc, -⟩ := (name_spec f).2 c (hname ▸ List.mem_cons_self)
      have hstop : p c = false := by
        by_contra hpc
        rw [hp c (Bool.not_eq_false _ ▸ hpc)] at hc
        cases hc
      have hdrop : (before ++ (f.name.toList ++ after) ++ '(' :: (arguments ++ [')']) ++
          (gap ++ rest)).dropWhile p =
          [] ++ (f.name.toList ++ after) ++ '(' :: (arguments ++ [')']) ++ (gap ++ rest) := by
        rw [List.append_assoc, List.append_assoc, List.append_assoc,
          List.dropWhile_append_of_pos fun d hd => hblank d (hbefore d hd), hname,
          List.cons_append, List.cons_append, List.dropWhile_cons_of_neg (by simp [hstop])]
        simp
      rw [hdrop]
      exact .cons (.intro (fun d hd => by cases hd) hafter harguments) hgap hrest

/-- Functions that are written are read as their product. -/
lemma Spells.composeFrom_eq (h : Spells fs cs) (m : Matrix) :
    composeFrom m cs = .ok (TransformFunction.product m fs) := by
  induction fs generalizing m cs with
  | nil =>
    cases h
    rw [composeFrom, List.isEmpty_nil, if_pos rfl]
    rfl
  | cons f fs ih =>
    cases h with
    | cons hwritten hgap hrest =>
      rw [composeFrom_writes hwritten, List.dropWhile_append_of_pos hgap]
      exact ih (hrest.dropWhile (fun _ => isListSeparator_of_isBlank) fun _ => id) _

/-! ## The first fault -/

/-- A text with a fault at its start is refused. -/
lemma Fault.composeFrom_eq (h : Fault cs e) (hne : cs ≠ []) (m : Matrix) :
    composeFrom m cs = .error e := by
  cases h with
  | noOpening h => exact composeFrom_noOpening hne h
  | noClosing hword h => exact composeFrom_noClosing hword h
  | badNumber hword harguments h =>
    refine composeFrom_error hword harguments ?_
    unfold Call.matrix
    simp only [numberList?_eq_none_iff.mpr h]
  | mismatch hword harguments hnumbers h =>
    refine composeFrom_error hword harguments ?_
    rw [matrix_eq hnumbers, matrixOf_eq_error_iff.mpr h]

/-- Blanks at the end do not change what is wrong at the start. -/
lemma Fault.append (h : Fault cs e) {blanks : List Char} (hblanks : Text.IsBlankRun blanks) :
    Fault (cs ++ blanks) e := by
  have hnone {c : Char} {cs : List Char} (hc : Text.isBlank c = false) (hcs : c ∉ cs) :
      c ∉ cs ++ blanks := by
    rw [List.mem_append, not_or]
    refine ⟨hcs, fun hmem => ?_⟩
    rw [hblanks c hmem] at hc
    cases hc
  cases h with
  | noOpening h => exact .noOpening (hnone (by decide) h)
  | noClosing hword h =>
    rw [List.append_assoc]
    exact .noClosing hword (hnone (by decide) h)
  | badNumber hword harguments h =>
    rw [List.append_assoc, List.cons_append, List.append_assoc]
    exact .badNumber hword harguments h
  | mismatch hword harguments hnumbers h =>
    rw [List.append_assoc, List.cons_append, List.append_assoc]
    exact .mismatch hword harguments hnumbers h

/-- A text that does not start with a function has a fault at its start. -/
lemma exists_fault_or_writes (hne : cs ≠ []) :
    (∃ e, Fault cs e) ∨ ∃ f written rest, Writes f written ∧ cs = written ++ rest := by
  by_cases hopening : '(' ∈ cs
  case neg => exact .inl ⟨_, .noOpening hopening⟩
  obtain ⟨word, behind, rfl, hword⟩ := List.eq_append_cons_of_mem hopening
  by_cases hclosing : ')' ∈ behind
  case neg => exact .inl ⟨_, .noClosing hword hclosing⟩
  obtain ⟨arguments, rest, rfl, harguments⟩ := List.eq_append_cons_of_mem hclosing
  cases hnumbers : numberList? arguments with
  | none => exact .inl ⟨_, .badNumber hword harguments (numberList?_eq_none_iff.mp hnumbers)⟩
  | some xs =>
    have hlist := numberList?_eq_some_iff.mp hnumbers
    cases hmatrix : matrixOf (String.ofList (Text.trim word)) xs with
    | error e => exact .inl ⟨_, .mismatch hword harguments hlist (matrixOf_eq_error_iff.mp hmatrix)⟩
    | ok m =>
      obtain ⟨f, hname, rfl, -⟩ := exists_function hmatrix
      obtain ⟨before, after, hbefore, hafter, htrim⟩ := Text.exists_trim word
      have hword : word = before ++ (f.name.toList ++ after) := by
        rw [hname, String.toList_ofList]
        exact htrim
      refine .inr ⟨f, _, rest, .intro hbefore hafter hlist, ?_⟩
      rw [← hword]
      simp

/-- A text behind which no further character of the class comes loses its own only. -/
lemma dropWhile_append_of_head {p : Char → Bool} (h : ∃ c ∈ rest.head?, p c = false) :
    (front ++ rest).dropWhile p = front.dropWhile p ++ rest := by
  obtain ⟨c, hc, hp⟩ := h
  obtain ⟨tail, rfl⟩ := List.head?_eq_some_iff.mp hc
  rw [List.dropWhile_append, List.dropWhile_cons_of_neg (by simp [hp])]
  split_ifs with hnone
  · rw [List.isEmpty_iff.mp hnone]
    rfl
  · rfl

/-- Functions that are written are read, and then what is wrong behind them is found. -/
lemma Spells.composeFrom_append (h : Spells fs front) (hfault : Fault rest e)
    (hhead : ∃ c ∈ rest.head?, fs ≠ [] → isListSeparator c = false) (m : Matrix) :
    composeFrom m (front ++ rest) = .error e := by
  obtain ⟨c, hc, hseparator⟩ := hhead
  induction fs generalizing m front with
  | nil =>
    cases h
    have hne : rest ≠ [] := by
      rintro rfl
      cases hc
    exact hfault.composeFrom_eq hne m
  | cons f fs ih =>
    cases h with
    | cons hwritten hgap hrest =>
      rw [List.append_assoc, composeFrom_writes hwritten, List.append_assoc,
        List.dropWhile_append_of_pos hgap,
        dropWhile_append_of_head ⟨c, hc, hseparator (List.cons_ne_nil _ _)⟩]
      exact ih (hrest.dropWhile (fun _ => isListSeparator_of_isBlank) fun _ => id) _
        fun _ => hseparator (List.cons_ne_nil _ _)

/-- A text writes functions, and nothing else but a fault behind them. -/
lemma exists_spells (cs : List Char) :
    (∃ fs, Spells fs cs) ∨
      ∃ fs front rest e, cs = front ++ rest ∧ Spells fs front ∧
        (∃ c ∈ rest.head?, fs ≠ [] → isListSeparator c = false) ∧ Fault rest e := by
  induction hlength : cs.length using Nat.strong_induction_on generalizing cs with
  | _ n ih =>
    cases cs with
    | nil => exact .inl ⟨[], .nil⟩
    | cons c cs =>
      rcases exists_fault_or_writes (List.cons_ne_nil c cs) with ⟨e, hfault⟩ | hwrites
      · exact .inr ⟨[], [], c :: cs, e, rfl, .nil, ⟨c, rfl, fun h => absurd rfl h⟩, hfault⟩
      · obtain ⟨f, written, behind, hwritten, heq⟩ := hwrites
        rw [heq] at hlength ⊢
        have hgap : ∀ c ∈ behind.takeWhile isListSeparator, isListSeparator c = true :=
          fun _ => List.mem_takeWhile_imp
        have hshorter : (behind.dropWhile isListSeparator).length < n := by
          have hwhole := (List.dropWhile_sublist isListSeparator (l := behind)).length_le
          have hpositive : 0 < written.length := by
            cases hwritten
            simp
          rw [← hlength, List.length_append]
          omega
        rcases ih _ hshorter _ rfl with ⟨fs, hfs⟩ | ⟨fs, front, rest, e, hcut, hfs, hhead, hfault⟩
        · have hspells := Spells.cons hwritten hgap hfs
          rw [List.takeWhile_append_dropWhile] at hspells
          exact .inl ⟨f :: fs, hspells⟩
        · refine .inr ⟨f :: fs, _, rest, e, ?_, .cons hwritten hgap hfs, ?_, hfault⟩
          · rw [List.append_assoc, List.append_assoc, ← hcut, List.takeWhile_append_dropWhile]
          · obtain ⟨c, hc, hseparator⟩ := hhead
            refine ⟨c, hc, fun _ => ?_⟩
            cases hfs with
            | nil =>
              exact Text.head?_dropLeading isListSeparator behind c
                ((congrArg List.head? hcut).trans hc)
            | cons => exact hseparator (List.cons_ne_nil _ _)

/-- A text is read as the product of the functions that it writes. -/
theorem composeFrom_eq_ok_iff :
    composeFrom m cs = .ok n ↔ ∃ fs, Spells fs cs ∧ n = TransformFunction.product m fs := by
  constructor
  · intro h
    rcases exists_spells cs with ⟨fs, hfs⟩ | ⟨fs, front, rest, e, rfl, hfs, hhead, hfault⟩
    · exact ⟨fs, hfs, Except.ok.inj (h.symm.trans (hfs.composeFrom_eq m))⟩
    · rw [hfs.composeFrom_append hfault hhead] at h
      cases h
  · rintro ⟨fs, hfs, rfl⟩
    exact hfs.composeFrom_eq m

/-- A text is refused for the first fault in it. -/
theorem composeFrom_eq_error_iff :
    composeFrom m cs = .error e ↔ ∃ fs front rest, cs = front ++ rest ∧ Spells fs front ∧
      (∃ c ∈ rest.head?, fs ≠ [] → isListSeparator c = false) ∧ Fault rest e := by
  constructor
  · intro h
    rcases exists_spells cs with ⟨fs, hfs⟩ | ⟨fs, front, rest, e', rfl, hfs, hhead, hfault⟩
    · rw [hfs.composeFrom_eq m] at h
      cases h
    · rw [hfs.composeFrom_append hfault hhead] at h
      obtain rfl := Except.error.inj h
      exact ⟨fs, front, rest, rfl, hfs, hhead, hfault⟩
  · rintro ⟨fs, front, rest, rfl, hfs, hhead, hfault⟩
    exact hfs.composeFrom_append hfault hhead m

/-! ## Whole lists -/

/-- Blanks behind functions are no further text. -/
lemma Spells.append (h : Spells fs cs) (hne : fs ≠ []) {blanks : List Char}
    (hblanks : Text.IsBlankRun blanks) : Spells fs (cs ++ blanks) := by
  induction h with
  | nil => exact absurd rfl hne
  | @cons f fs written gap rest hwritten hgap hrest ih =>
    rw [List.append_assoc, List.append_assoc]
    cases hrest with
    | nil =>
      have hseparators : ∀ c ∈ gap ++ blanks, isListSeparator c = true := by
        intro c hc
        rcases List.mem_append.mp hc with hc | hc
        · exact hgap c hc
        · exact isListSeparator_of_isBlank (hblanks c hc)
      have hspells := Spells.cons hwritten hseparators .nil
      rwa [List.append_nil] at hspells
    | cons => exact .cons hwritten hgap (ih (List.cons_ne_nil _ _))

/-- Blanks at the end of a text are no part of it. -/
lemma composeFrom_append_blanks (hne : cs ≠ []) {blanks : List Char}
    (hblanks : Text.IsBlankRun blanks) : composeFrom m (cs ++ blanks) = composeFrom m cs := by
  rcases exists_spells cs with ⟨fs, hfs⟩ | ⟨fs, front, rest, e, rfl, hfs, hhead, hfault⟩
  · have hfunctions : fs ≠ [] := by
      rintro rfl
      cases hfs
      exact hne rfl
    rw [hfs.composeFrom_eq m, (hfs.append hfunctions hblanks).composeFrom_eq m]
  · obtain ⟨c, hc, hseparator⟩ := hhead
    have hc' : c ∈ (rest ++ blanks).head? := by
      rw [List.head?_append, Option.mem_def.mp hc]
      rfl
    rw [hfs.composeFrom_append hfault ⟨c, hc, hseparator⟩, List.append_assoc,
      hfs.composeFrom_append (hfault.append hblanks) ⟨c, hc', hseparator⟩]

/-- A list is read behind its leading blanks; those at its end do not matter. -/
lemma ofTransformList_eq (value : String) :
    Matrix.ofTransformList value =
      composeFrom .identity (Text.dropLeading Text.isBlank value.toList) := by
  unfold Matrix.ofTransformList Text.trim Text.trimBy
  obtain ⟨blanks, hblanks, htext⟩ :=
    Text.exists_dropTrailing Text.isBlank (Text.dropLeading Text.isBlank value.toList)
  cases hbody : Text.dropTrailing Text.isBlank (Text.dropLeading Text.isBlank value.toList) with
  | nil =>
    -- what consists of blanks and starts with none is empty
    rw [hbody, List.nil_append] at htext
    have hempty : blanks = [] := by
      refine List.head?_eq_none_iff.mp (Option.eq_none_iff_forall_not_mem.mpr fun c hc => ?_)
      have hblank := hblanks c (List.mem_of_mem_head? hc)
      rw [Text.head?_dropLeading Text.isBlank value.toList c (htext ▸ hc)] at hblank
      cases hblank
    rw [htext, hempty]
  | cons c body =>
    conv_rhs => rw [htext, hbody]
    exact (composeFrom_append_blanks (List.cons_ne_nil _ _) hblanks).symm

/-- A transform list: blanks, and then functions. -/
def IsTransformList (fs : List TransformFunction) (cs : List Char) : Prop :=
  ∃ blanks rest, Text.IsBlankRun blanks ∧ cs = blanks ++ rest ∧ Spells fs rest

/-- Behind its leading blanks, a transform list consists of its functions. -/
lemma IsTransformList.dropLeading (h : IsTransformList fs cs) :
    Spells fs (Text.dropLeading Text.isBlank cs) := by
  obtain ⟨blanks, rest, hblanks, rfl, hfs⟩ := h
  rw [Text.dropLeading_append hblanks]
  exact hfs.dropWhile (fun _ => id) fun _ => isListSeparator_of_isBlank

/-- Leading blanks are part of a transform list. -/
lemma isTransformList_of_dropLeading (h : Spells fs (Text.dropLeading Text.isBlank cs)) :
    IsTransformList fs cs :=
  ⟨cs.takeWhile Text.isBlank, _, fun _ => List.mem_takeWhile_imp,
    List.takeWhile_append_dropWhile.symm, h⟩

/-- A text is accepted exactly if it is a transform list, and denotes the product of its functions
from left to right. -/
lemma ofTransformList_eq_ok_iff {value : String} :
    Matrix.ofTransformList value = .ok m ↔
      ∃ fs, IsTransformList fs value.toList ∧ m = TransformFunction.product .identity fs := by
  rw [ofTransformList_eq, composeFrom_eq_ok_iff]
  constructor
  · rintro ⟨fs, hfs, rfl⟩
    exact ⟨fs, isTransformList_of_dropLeading hfs, rfl⟩
  · rintro ⟨fs, hfs, rfl⟩
    exact ⟨fs, hfs.dropLeading, rfl⟩

/-- A text is refused exactly if something is wrong behind a transform list at its start. -/
lemma ofTransformList_eq_error_iff {value : String} :
    Matrix.ofTransformList value = .error e ↔
      ∃ fs front rest, value.toList = front ++ rest ∧ IsTransformList fs front ∧
        (∃ c ∈ rest.head?, (if fs = [] then Text.isBlank c else isListSeparator c) = false) ∧
        Fault rest e := by
  rw [ofTransformList_eq, composeFrom_eq_error_iff]
  constructor
  · rintro ⟨fs, front, rest, hcut, hfs, ⟨c, hc, hseparator⟩, hfault⟩
    have htext : value.toList = value.toList.takeWhile Text.isBlank ++ front ++ rest := by
      rw [List.append_assoc, ← hcut]
      exact List.takeWhile_append_dropWhile.symm
    refine ⟨fs, _, rest, htext, ⟨_, front, fun _ => List.mem_takeWhile_imp, rfl, hfs⟩,
      ⟨c, hc, ?_⟩, hfault⟩
    split_ifs with hnone
    · subst hnone
      cases hfs
      exact Text.head?_dropLeading Text.isBlank _ c ((congrArg List.head? hcut).trans hc)
    · exact hseparator hnone
  · rintro ⟨fs, front, rest, hcut, hfs, ⟨c, hc, hstop⟩, hfault⟩
    have hblank : Text.isBlank c = false := by
      split_ifs at hstop
      · exact hstop
      · exact (Bool.or_eq_false_iff.mp hstop).1
    refine ⟨fs, _, rest, ?_, hfs.dropLeading, ⟨c, hc, fun hne => ?_⟩, hfault⟩
    · rw [hcut]
      exact dropWhile_append_of_head ⟨c, hc, hblank⟩
    · rwa [if_neg hne] at hstop

end

end TransformList

open TransformList in
/-- The language of transform lists, and what is wrong with every other text.

A text is accepted exactly if it is a transform list, and it then denotes the product of its
functions from left to right.  Every other text starts with a transform list behind which a fault
follows at once; this fault alone, and not the functions before it, decides the error. -/
theorem Matrix.ofTransformList_language (value : String) :
    (∀ m, Matrix.ofTransformList value = .ok m ↔
      ∃ fs, IsTransformList fs value.toList ∧ TransformFunction.DenoteAll fs m) ∧
    ∀ e, Matrix.ofTransformList value = .error e ↔
      ∃ fs front rest, value.toList = front ++ rest ∧ IsTransformList fs front ∧
        (∃ c ∈ rest.head?, (if fs = [] then Text.isBlank c else isListSeparator c) = false) ∧
        Fault rest e := by
  refine ⟨fun m => ?_, fun _ => ofTransformList_eq_error_iff⟩
  simp only [ofTransformList_eq_ok_iff, TransformFunction.denoteAll_iff]

namespace TransformList

/-- A name with a text of its numbers in parentheses behind it is a function on its own. -/
lemma spells_single (f : TransformFunction) {arguments : List Char}
    (h : numberList? arguments = some f.arguments) :
    Spells [f] (f.name.toList ++ '(' :: (arguments ++ [')'])) := by
  have hnone : Text.IsBlankRun [] := List.forall_mem_nil _
  have hwrites := Writes.intro hnone hnone (numberList?_eq_some_iff.mp h)
  have hspells := Spells.cons hwrites (List.forall_mem_nil _) .nil
  rwa [List.nil_append, List.append_nil, List.append_nil, List.append_nil] at hspells

/-- Two functions can be written with a blank between them. -/
lemma Spells.blank {f : TransformFunction} {fs : List TransformFunction} {cs cs' : List Char}
    (h : Spells [f] cs) (h' : Spells fs cs') : Spells (f :: fs) (cs ++ ([' '] ++ cs')) := by
  cases h with
  | @cons _ _ written gap _ hwritten hgap hnil =>
    cases hnil
    have hgap' : ∀ c ∈ gap ++ [' '], isListSeparator c = true := by
      simp only [List.forall_mem_append, List.forall_mem_singleton]
      exact ⟨hgap, rfl⟩
    have htext : written ++ (gap ++ []) ++ ([' '] ++ cs') =
        written ++ (gap ++ [' '] ++ cs') := by
      simp
    rw [htext]
    exact .cons hwritten hgap' h'

/-- Functions without blanks in front are a transform list. -/
lemma Spells.isTransformList {fs : List TransformFunction} {cs : List Char} (h : Spells fs cs) :
    IsTransformList fs cs :=
  ⟨[], cs, List.forall_mem_nil _, rfl, h⟩

end TransformList

open TransformList in
/-- The order of functions matters: a move in front of a doubling keeps its length, and one behind
it is doubled.  A quarter turn around a point, whose cosine is not quite nought, keeps this point
but for rounding. -/
theorem Matrix.ofTransformList_language_composed :
    Matrix.ofTransformList "translate(3,4) scale(2)" = .ok ⟨2, 0, 0, 2, 3, 4⟩ ∧
      Matrix.ofTransformList "scale(2) translate(3,4)" = .ok ⟨2, 0, 0, 2, 6, 8⟩ ∧
      Matrix.ofTransformList "rotate(90,1,2)" =
        .ok ⟨Float32.ofBits 0xb33bbd2e, 1, -1, Float32.ofBits 0xb33bbd2e, 3, 1⟩ := by
  have hmove := spells_single (.translate 3 (some 4)) (show numberList? ['3', ',', '4'] = _ by
    decide +kernel)
  have hdoubling := spells_single (.scale 2 none) (show numberList? ['2'] = _ by decide +kernel)
  have hturn := spells_single (.rotate 90 (some ⟨1, 2⟩))
    (show numberList? ['9', '0', ',', '1', ',', '2'] = _ by decide +kernel)
  refine ⟨?_, ?_, ?_⟩
  · refine ((Matrix.ofTransformList_language _).1 _).mpr
      ⟨_, (hmove.blank hdoubling).isTransformList, ?_⟩
    refine .concat (.concat .nil (.translate 3 (some 4)) (m := ⟨1, 0, 0, 1, 3, 4⟩) ?_)
      (.scale 2 none) ?_
    · constructor <;> decide +kernel
    · constructor <;> decide +kernel
  · refine ((Matrix.ofTransformList_language _).1 _).mpr
      ⟨_, (hdoubling.blank hmove).isTransformList, ?_⟩
    refine .concat (.concat .nil (.scale 2 none) (m := ⟨2, 0, 0, 2, 0, 0⟩) ?_)
      (.translate 3 (some 4)) ?_
    · constructor <;> decide +kernel
    · constructor <;> decide +kernel
  · let cosine := Float32.ofBits 0xb33bbd2e
    have hsine : 1 = Angle.sin (Angle.ofDegrees 90) := by decide +kernel
    have hcosine : cosine = Angle.cos (Angle.ofDegrees 90) := by decide +kernel
    have hmoved : Matrix.IsProduct ⟨1, 0, 0, 1, 1, 2⟩ ⟨cosine, 1, -1, cosine, 0, 0⟩
        ⟨cosine, 1, -1, cosine, 1, 2⟩ := by
      constructor <;> decide +kernel
    have hback : Matrix.IsProduct ⟨cosine, 1, -1, cosine, 1, 2⟩ ⟨1, 0, 0, 1, -1, -2⟩
        ⟨cosine, 1, -1, cosine, 3, 1⟩ := by
      constructor <;> decide +kernel
    refine ((Matrix.ofTransformList_language _).1 _).mpr ⟨_, hturn.isTransformList, ?_⟩
    refine .concat .nil (.rotateAbout 90 ⟨1, 2⟩ (.rotate 90 hsine hcosine) hmoved hback) ?_
    constructor <;> decide +kernel

end SvgDisplayList
