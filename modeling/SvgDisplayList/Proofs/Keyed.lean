import Mathlib.Data.List.Induction
import Mathlib.Data.List.Nodup
import Mathlib.Tactic.Lemma
import Mathlib.Tactic.SplitIfs
import SvgDisplayList.Keyed

/-!
# Values under names, put and taken away

Names stay distinct when a value is written (`Keyed.nodup_names_put`), and stand in the order in
which they were first written (`Keyed.names_foldl_put`).  Under a name stands the last value that
has been written there (`Keyed.get?_foldl_put`), and what is written under other names can be taken
away before or after (`Keyed.without_put`).
-/

namespace SvgDisplayList

namespace Keyed

variable {α : Type} {name k : String} {value v : α} {entries : Keyed α}

/-- The names of the entries. -/
def names (entries : Keyed α) : List String := entries.map (·.1)

/-- An entry is new or was there before. -/
lemma mem_put (h : (k, v) ∈ put name value entries) :
    (k = name ∧ v = value) ∨ (k, v) ∈ entries := by
  induction entries with
  | nil =>
    cases List.mem_singleton.mp h
    exact Or.inl ⟨rfl, rfl⟩
  | cons entry rest ih =>
    unfold put at h
    split_ifs at h with hname
    · rcases List.mem_cons.mp h with h | h
      · cases h
        exact Or.inl ⟨hname, rfl⟩
      · exact Or.inr (List.mem_cons_of_mem _ h)
    · rcases List.mem_cons.mp h with h | h
      · exact Or.inr (h ▸ List.mem_cons_self)
      · exact (ih h).imp_right (List.mem_cons_of_mem _)

/-- A name of an entry is new or was there before. -/
lemma mem_names_put (h : k ∈ names (put name value entries)) : k = name ∨ k ∈ names entries := by
  obtain ⟨⟨k', v⟩, hmem, rfl⟩ := List.mem_map.mp h
  exact (mem_put hmem).imp (·.1) fun hold => List.mem_map.mpr ⟨_, hold, rfl⟩

/-- Names stay distinct. -/
lemma nodup_names_put (h : (names entries).Nodup) : (names (put name value entries)).Nodup := by
  induction entries with
  | nil => exact List.nodup_singleton name
  | cons entry rest ih =>
    obtain ⟨hfresh, hrest⟩ := List.nodup_cons.mp h
    unfold put
    split_ifs with hname
    · exact h
    · refine List.nodup_cons.mpr ⟨fun hmem => ?_, ih hrest⟩
      exact (mem_names_put hmem).elim hname hfresh

/-- A name that is written first stands behind all others. -/
lemma names_put (entries : Keyed α) (name : String) (value : α) :
    names (put name value entries) =
      if name ∈ names entries then names entries else names entries ++ [name] := by
  induction entries with
  | nil => rfl
  | cons entry rest ih =>
    have hcons (rest : Keyed α) : names (entry :: rest) = entry.1 :: names rest := rfl
    unfold put
    by_cases hentry : entry.1 = name
    · rw [if_pos hentry, if_pos (by rw [hcons, hentry]; exact List.mem_cons_self)]
      rfl
    · have hmem : name ∈ names (entry :: rest) ↔ name ∈ names rest := by
        rw [hcons, List.mem_cons, or_iff_right (Ne.symm hentry)]
      simp only [if_neg hentry, hmem]
      change entry.1 :: names (put name value rest) = _
      rw [ih]
      split_ifs <;> rfl

/-- Names stand in the order in which they were first written. -/
theorem names_foldl_put (xs : List (String × α)) :
    names (xs.foldl (fun es x => put x.1 x.2 es) []) = (xs.map (·.1)).eraseDups := by
  induction xs using List.reverseRecOn with
  | nil => rfl
  | append_singleton xs x ih =>
    have hmem : x.1 ∈ names (xs.foldl (fun es x => put x.1 x.2 es) []) ↔
        x.1 ∈ xs.map (·.1) := by
      rw [ih, List.mem_eraseDups]
    rw [List.foldl_append, List.map_append, List.eraseDups_append, ← ih]
    change names (put x.1 x.2 _) = _ ++ (List.removeAll [x.1] _).eraseDups
    rw [names_put]
    by_cases hx : x.1 ∈ xs.map (·.1)
    · rw [if_pos (hmem.mpr hx), List.removeAll, List.filter_cons_of_neg (by simpa using hx)]
      exact (List.append_nil _).symm
    · rw [if_neg (mt hmem.mp hx), List.removeAll, List.filter_cons_of_pos (by simpa using hx)]
      rfl

/-- The value under a name is in an entry. -/
lemma mem_of_get? (h : get? entries name = some value) : (name, value) ∈ entries := by
  obtain ⟨⟨k, v⟩, hfind, rfl⟩ := Option.map_eq_some_iff.mp h
  have hk : k = name := by simpa using List.find?_some hfind
  exact hk ▸ List.mem_of_find?_eq_some hfind

/-- Where names are distinct, an entry has the value under its name. -/
lemma get?_of_mem (hnodup : (names entries).Nodup) (h : (name, value) ∈ entries) :
    get? entries name = some value := by
  induction entries with
  | nil => cases h
  | cons entry rest ih =>
    obtain ⟨hfresh, hrest⟩ := List.nodup_cons.mp hnodup
    unfold get?
    rcases List.mem_cons.mp h with rfl | h
    · simp
    · have hne : entry.1 ≠ name := by
        rintro rfl
        exact hfresh (List.mem_map.mpr ⟨_, h, rfl⟩)
      rw [List.find?_cons_of_neg (by simpa using hne)]
      exact ih hrest h

/-- A value is added under a name if nothing stood there, and nothing else changes. -/
lemma get?_putNew (entries : Keyed α) (k name : String) (value : α) :
    get? (putNew k value entries) name =
      (get? entries name).or (if k = name then some value else none) := by
  induction entries with
  | nil =>
    unfold putNew get?
    by_cases hk : k = name <;> simp [hk]
  | cons entry rest ih =>
    unfold putNew
    by_cases hentry : entry.1 = k
    · rw [if_pos hentry]
      by_cases hk : k = name
      · simp [get?, hk, hentry]
      · rw [if_neg hk, Option.or_none]
    · rw [if_neg hentry]
      unfold get? at ih ⊢
      by_cases hname : entry.1 = name
      · simp [hname]
      · simpa [hname] using ih

/-- An entry is new or was there before, if a value is added. -/
lemma mem_putNew {x : String × α} (h : x ∈ putNew name value entries) :
    x = (name, value) ∨ x ∈ entries := by
  induction entries with
  | nil => exact Or.inl (List.mem_singleton.mp h)
  | cons entry rest ih =>
    unfold putNew at h
    split_ifs at h
    · exact Or.inr h
    · rcases List.mem_cons.mp h with rfl | h
      · exact Or.inr List.mem_cons_self
      · exact (ih h).imp_right (List.mem_cons_of_mem _)

/-- Nothing stands under a name exactly if no entry has the name. -/
lemma get?_eq_none_iff : get? entries name = none ↔ name ∉ names entries := by
  unfold get? names
  rw [Option.map_eq_none_iff, List.find?_eq_none, List.mem_map]
  simp only [beq_iff_eq, not_exists, not_and]

/-! ## The last value under a name -/

/-- The last value under a name in a list in which names may come more than once. -/
def last? (xs : List (String × α)) (name : String) : Option α :=
  ((xs.filter (·.1 == name)).getLast?).map (·.2)

/-- The last value is among the later ones, or else the first one. -/
lemma last?_cons (x : String × α) (xs : List (String × α)) (name : String) :
    last? (x :: xs) name = (last? xs name).or (if x.1 = name then some x.2 else none) := by
  unfold last?
  rw [List.filter_cons]
  by_cases hx : x.1 = name
  · simp only [hx, beq_self_eq_true, if_true]
    cases hlast : (xs.filter (·.1 == name)).getLast? with
    | none => simp [List.getLast?_eq_none_iff.mp hlast]
    | some y => simp [List.getLast?_cons, hlast]
  · simp [hx]

/-- The last value in two lists is that in the second one, or else that in the first one. -/
lemma last?_append {xs ys : List (String × α)} {name : String} :
    last? (xs ++ ys) name = (last? ys name).or (last? xs name) := by
  induction xs with
  | nil => rw [List.nil_append, show last? [] name = (none : Option α) from rfl, Option.or_none]
  | cons x xs ih => rw [List.cons_append, last?_cons, last?_cons, ih, Option.or_assoc]

/-- The last value under a name is one of the values under the name. -/
lemma mem_of_last? {xs : List (String × α)} {name : String} {value : α}
    (h : last? xs name = some value) : (name, value) ∈ xs := by
  obtain ⟨⟨k, v⟩, hlast, rfl⟩ := Option.map_eq_some_iff.mp h
  obtain ⟨hmem, hk⟩ := List.mem_filter.mp (List.mem_of_getLast? hlast)
  rw [beq_iff_eq] at hk
  exact hk ▸ hmem

/-- A name has a last value exactly if it has a value. -/
lemma last?_eq_none_iff {xs : List (String × α)} {name : String} :
    last? xs name = none ↔ ∀ x ∈ xs, x.1 ≠ name := by
  unfold last?
  rw [Option.map_eq_none_iff, List.getLast?_eq_none_iff, List.filter_eq_nil_iff]
  simp only [beq_iff_eq, ne_eq]

/-- What is written under a name stands there, and nothing else changes. -/
lemma get?_put (entries : Keyed α) (k name : String) (value : α) :
    get? (put k value entries) name = if k = name then some value else get? entries name := by
  induction entries with
  | nil =>
    unfold put get?
    by_cases hk : k = name <;> simp [hk]
  | cons entry rest ih =>
    unfold put
    by_cases hentry : entry.1 = k
    · rw [if_pos hentry]
      by_cases hk : k = name <;> simp [get?, hk, hentry]
    · rw [if_neg hentry]
      unfold get? at ih ⊢
      by_cases hname : entry.1 = name
      · have hk : k ≠ name := fun heq => hentry (hname.trans heq.symm)
        simp [hname, hk]
      · simpa [hname] using ih

/-- A value under a new name is one entry more. -/
lemma length_put (entries : Keyed α) (name : String) (value : α) :
    (put name value entries).length =
      entries.length + if (get? entries name).isSome then 0 else 1 := by
  induction entries with
  | nil => rfl
  | cons entry rest ih =>
    unfold put
    by_cases hname : entry.1 = name
    · simp [get?, hname]
    · have hget : get? (entry :: rest) name = get? rest name := by
        unfold get?
        rw [List.find?_cons_of_neg (by simpa using hname)]
      rw [if_neg hname, List.length_cons, ih, List.length_cons, hget, Nat.add_right_comm]

/-- Under a name stands the last value that is written there, or what stood there before. -/
lemma get?_foldl_put (xs : List (String × α)) (entries : Keyed α) (name : String) :
    get? (xs.foldl (fun es x => put x.1 x.2 es) entries) name =
      (last? xs name).or (get? entries name) := by
  induction xs generalizing entries with
  | nil => rfl
  | cons x xs ih =>
    rw [List.foldl_cons, ih, get?_put, last?_cons]
    cases last? xs name with
    | some v => rfl
    | none =>
      by_cases hx : x.1 = name <;> simp [hx]

/-! ## Taking a name away -/

/-- The entries but for those of a name. -/
def without (k : String) (entries : Keyed α) : Keyed α := entries.filter fun x => x.1 != k

/-- A name is taken away after a value is written, or before. -/
lemma without_put (k name : String) (value : α) (entries : Keyed α) :
    without k (put name value entries) =
      if name = k then without k entries else put name value (without k entries) := by
  unfold without
  induction entries with
  | nil => by_cases hname : name = k <;> simp [put, hname]
  | cons entry entries ih =>
    obtain ⟨j, w⟩ := entry
    have hput : ∀ rest : Keyed α, put name value ((j, w) :: rest) =
        if j = name then (j, value) :: rest else (j, w) :: put name value rest := fun _ => rfl
    rw [hput]
    by_cases hj : j = k
    · -- the entry itself is taken away, so that the value is written behind it or nowhere
      rw [List.filter_cons_of_neg (by simpa using hj)]
      by_cases hname : j = name
      · rw [if_pos hname, List.filter_cons_of_neg (by simpa using hj), if_pos (hname ▸ hj)]
      · rw [if_neg hname, List.filter_cons_of_neg (by simpa using hj), ih]
    · rw [List.filter_cons_of_pos (by simpa using hj), hput]
      by_cases hname : j = name
      · rw [if_pos hname, if_pos hname, List.filter_cons_of_pos (by simpa using hj),
          if_neg (hname ▸ hj)]
      · rw [if_neg hname, if_neg hname, List.filter_cons_of_pos (by simpa using hj), ih]
        split_ifs <;> rfl

/-- What stands under other names is not taken away. -/
lemma get?_without {k name : String} (h : name ≠ k) (entries : Keyed α) :
    get? (without k entries) name = get? entries name := by
  unfold get? without
  rw [List.find?_filter]
  congr 2
  funext x
  by_cases hx : x.1 = name
  · simp [hx, h]
  · simp [hx]

end Keyed

end SvgDisplayList
