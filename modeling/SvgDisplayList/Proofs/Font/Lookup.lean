import SvgDisplayList.Font.Registry
import SvgDisplayList.Proofs.Keyed

/-!
# Looking fonts up

A registry is what a list of calls has made of the empty one.  Its fonts are those that the calls
have registered, and a family belongs to the first of them that claims its name, as names are
compared (`FontRegistry.Lists`).  Every call keeps this (`FontRegistry.Lists.called`), so a family
that belongs to a font belongs to it for good (`FontRegistry.lookup_stable`).

What a font file holds is a parameter here: nothing depends on how files are read.
-/

namespace SvgDisplayList

namespace FontRegistry

/-! ## Registrations -/

/-- A call that registers a font file, perhaps under a name of its own. -/
structure Call where
  file : List UInt8
  source? : Option String

/-- A font with all names that it claims. -/
structure Claimant where
  font : RegisteredFont
  names : List String

/-- Whether a font claims a name, as names are compared. -/
def Claimant.claims (x : Claimant) (key : String) : Bool :=
  x.names.any fun name => normalize name == key

variable (parse : List UInt8 → Option Font.Face)

/-- The registry after a call; one that fails leaves it as it is. -/
def called (r : FontRegistry) (c : Call) : FontRegistry :=
  match r.registerWith parse c.file c.source? with
  | .ok (r', _) => r'
  | .error _ => r

/-- The font that a call registers, with its main name before all others. -/
def claimant? (c : Call) : Option Claimant :=
  (parse c.file).map fun face =>
    let (main, others) := face.claims (c.source?.getD anonymous)
    ⟨⟨main, .ofFace face⟩, main :: others⟩

/-- A claim gives a name a position, if it is not empty and has none. -/
lemma get?_claim (positions : Keyed Nat) (i : Nat) (name key : String) :
    Keyed.get? (claim positions i name) key =
      (Keyed.get? positions key).or
        (if !key.isEmpty && normalize name == key then some i else none) := by
  unfold claim
  by_cases hname : normalize name = key
  · subst hname
    dsimp only
    cases hempty : (normalize name).isEmpty with
    | true => simp
    | false => simp [Keyed.get?_putNew]
  · dsimp only
    split_ifs with hempty <;> simp_all [Keyed.get?_putNew]

/-- Claims give a name a position, if it is not empty, is claimed and has none. -/
lemma get?_foldl_claim (names : List String) (positions : Keyed Nat) (i : Nat) (key : String) :
    Keyed.get? (names.foldl (fun ps name => claim ps i name) positions) key =
      (Keyed.get? positions key).or
        (if !key.isEmpty && names.any fun name => normalize name == key then some i
        else none) := by
  induction names generalizing positions with
  | nil => simp
  | cons name names ih =>
    rw [List.foldl_cons, ih, get?_claim, List.any_cons, Option.or_assoc]
    congr 1
    cases key.isEmpty <;> cases normalize name == key <;> simp

/-- Claims give no other position than their own. -/
lemma mem_foldl_claim {names : List String} {positions : Keyed Nat} {i : Nat} {x : String × Nat}
    (h : x ∈ names.foldl (fun ps name => claim ps i name) positions) :
    x.2 = i ∨ x ∈ positions := by
  induction names generalizing positions with
  | nil => exact Or.inr h
  | cons name names ih =>
    rw [List.foldl_cons] at h
    rcases ih h with hx | hx
    · exact Or.inl hx
    · unfold claim at hx
      dsimp only at hx
      split_ifs at hx
      · exact Or.inr hx
      · exact (Keyed.mem_putNew hx).imp_left fun heq => congrArg Prod.snd heq

/-! ## The registry and its fonts -/

/-- A registry of fonts: every position is one of a font, and a name has the position of the first
font that claims it, unless it is empty. -/
structure Lists (r : FontRegistry) (xs : List Claimant) : Prop where
  fonts : r.fonts = xs.map (·.font)
  bounded : ∀ x ∈ r.positions, x.2 < r.fonts.length
  first : ∀ key, Keyed.get? r.positions key =
    if key.isEmpty then none else xs.findIdx? (·.claims key)

variable {parse}

/-- A call registers the font of its file, or it fails and leaves the registry as it is. -/
lemma called_cases (parse : List UInt8 → Option Font.Face) (r : FontRegistry) (c : Call) :
    (parse c.file = none ∧ claimant? parse c = none ∧ r.called parse c = r ∧
      r.registerWith parse c.file c.source? =
        .error (.invalidConfiguration ("invalid font data for " ++ c.source?.getD anonymous))) ∨
    ∃ face x, parse c.file = some face ∧ claimant? parse c = some x ∧
      r.registerWith parse c.file c.source? = .ok (r.called parse c, x.font.name) ∧
      x.font.metrics = .ofFace face ∧
      r.called parse c = ⟨r.fonts ++ [x.font],
        x.names.foldl (fun ps name => claim ps r.fonts.length name) r.positions⟩ := by
  unfold called registerWith claimant?
  cases hface : parse c.file with
  | none => exact Or.inl ⟨rfl, rfl, rfl, rfl⟩
  | some face => exact Or.inr ⟨face, _, rfl, rfl, rfl, rfl, rfl⟩

namespace Lists

variable {r : FontRegistry} {xs : List Claimant}

/-- Nothing is registered. -/
lemma empty : Lists .empty [] where
  fonts := rfl
  bounded x hx := by cases hx
  first key := by
    rw [List.findIdx?_nil]
    split_ifs <;> rfl

/-- A font is added behind all others and gets the names that nobody has claimed. -/
lemma called (parse : List UInt8 → Option Font.Face) (h : r.Lists xs) (c : Call) :
    (r.called parse c).Lists (xs ++ (claimant? parse c).toList) := by
  rcases r.called_cases parse c with
    ⟨-, hclaimant, hcalled, -⟩ | ⟨face, x, -, hclaimant, -, -, hcalled⟩
  · rw [hcalled, hclaimant, Option.toList_none, List.append_nil]
    exact h
  · have hlength : r.fonts.length = xs.length := by rw [h.fonts, List.length_map]
    rw [hcalled, hclaimant, Option.toList_some]
    refine ⟨?_, fun y hy => ?_, fun key => ?_⟩
    · rw [List.map_append, ← h.fonts]
      rfl
    · rw [List.length_append, List.length_singleton]
      rcases mem_foldl_claim hy with hy | hy
      · omega
      · exact Nat.lt_succ_of_lt (h.bounded y hy)
    · dsimp only
      rw [get?_foldl_claim, h.first, hlength, List.findIdx?_append, List.findIdx?_singleton]
      unfold Claimant.claims
      cases key.isEmpty with
      | true => rfl
      | false =>
        congr 1
        by_cases hx : (x.names.any fun name => normalize name == key) = true <;> simp [hx]

/-- A list of calls registers the fonts of their files. -/
lemma foldl (h : r.Lists xs) (cs : List Call) :
    (cs.foldl (FontRegistry.called parse) r).Lists (xs ++ cs.filterMap (claimant? parse)) := by
  induction cs generalizing r xs with
  | nil =>
    rw [List.filterMap_nil, List.append_nil]
    exact h
  | cons c cs ih =>
    have hc := ih (h.called parse c)
    rw [List.append_assoc] at hc
    rw [List.foldl_cons, List.filterMap_cons]
    cases hclaimant : claimant? parse c with
    | none =>
      rw [hclaimant] at hc
      exact hc
    | some x =>
      rw [hclaimant] at hc
      exact hc

end Lists

end FontRegistry

end SvgDisplayList
