/-
Look-ups in a value that has been changed at one place.

A name is looked up among members, where the last one counts, or among
the items of an array that stands for its fields in order. Taking a name
out of the members changes no look-up but its own; exchanging one member
or item changes at most the look-up of its name.
-/
import TimedOverlay.Json.Value

namespace TimedOverlay.Json.Value

variable {name n : String} {v w : Value}

-- ============================================================== members

/-- The members without those of a name. -/
def without (name : String) (ms : List (String × Value)) :
    List (String × Value) := ms.filter (·.1 ≠ name)

/-- Of two lists of members the second counts first. -/
theorem last?_append (n : String) (ms ns : List (String × Value)) :
    last? n (ms ++ ns) = (last? n ns).or (last? n ms) := by
  unfold last?
  rw [List.reverse_append, List.find?_append, Option.map_or]

/-- A member in front counts if there is no other of its name. -/
theorem last?_cons (n : String) (p : String × Value)
    (ms : List (String × Value)) :
    last? n (p :: ms)
      = (last? n ms).or (if p.1 = n then some p.2 else none) := by
  have h := last?_append n [p] ms
  rw [List.singleton_append] at h
  rw [h]
  congr 1
  unfold last?
  rw [List.reverse_singleton, List.find?_singleton]
  by_cases hp : p.1 = n
  · simp [hp]
  · simp [hp]

theorem last?_without_self (name : String) (ms : List (String × Value)) :
    last? name (without name ms) = none := by
  unfold last? without
  rw [Option.map_eq_none_iff, List.find?_eq_none]
  intro p hp
  simpa using (List.mem_filter.1 (List.mem_reverse.1 hp)).2

/-- Taking out one name changes the look-up of no other. -/
theorem last?_without_of_ne (h : n ≠ name) (ms : List (String × Value)) :
    last? n (without name ms) = last? n ms := by
  unfold last? without
  rw [← List.filter_reverse, List.find?_filter]
  congr 2
  funext p
  by_cases hp : p.1 = n
  · simp [hp, h]
  · simp [hp]

/-- Exchanging the value of one member changes at most the look-up of its
name, and that only where it found this member. -/
theorem last?_exchange (n name : String) (v w : Value)
    (pre post : List (String × Value)) :
    last? n (pre ++ (name, v) :: post) = last? n (pre ++ (name, w) :: post)
      ∨ n = name
        ∧ last? n (pre ++ (name, v) :: post) = some v
        ∧ last? n (pre ++ (name, w) :: post) = some w := by
  simp only [last?_append, last?_cons]
  cases last? n post with
  | some u => exact .inl rfl
  | none =>
      by_cases hname : name = n
      · exact .inr ⟨hname.symm, by simp [hname], by simp [hname]⟩
      · exact .inl (by simp [hname])

/-- Where no name is repeated, a name has the value of its only member. -/
theorem last?_eq_some_iff {ms : List (String × Value)}
    (hnodup : (ms.map (·.1)).Nodup) :
    last? n ms = some v ↔ (n, v) ∈ ms := by
  induction ms generalizing v with
  | nil => simp [last?]
  | cons p ms ih =>
      obtain ⟨hfirst, hrest⟩ := List.nodup_cons.1 hnodup
      rw [last?_cons, List.mem_cons, ← ih hrest]
      by_cases hp : p.1 = n
      · -- The first member is the only one of its name.
        have hnone : last? n ms = none := by
          rw [Option.eq_none_iff_forall_ne_some]
          intro u hu
          rw [ih hrest] at hu
          exact hfirst (List.mem_map.2 ⟨(n, u), hu, hp.symm⟩)
        rw [hnone, if_pos hp, Option.none_or, Option.some_inj]
        constructor
        · rintro rfl
          exact .inl (Prod.ext hp.symm rfl)
        · rintro (heq | hfalse)
          · rw [← heq]
          · cases hfalse
      · have hne : (n, v) ≠ p := by
          rintro rfl
          exact hp rfl
        rw [if_neg hp, Option.or_none]
        simp [hne]

/-- Where no name is repeated, the order of members does not matter. -/
theorem last?_of_perm {ms ns : List (String × Value)} (h : ms.Perm ns)
    (hnodup : (ms.map (·.1)).Nodup) (n : String) :
    last? n ms = last? n ns := by
  have hnodup' : (ns.map (·.1)).Nodup := (h.map _).nodup_iff.1 hnodup
  ext v
  rw [last?_eq_some_iff hnodup, last?_eq_some_iff hnodup', h.mem_iff]

-- ================================================================ items

/-- Exchanging one item changes at most the look-up of the name that
stands at its place. -/
theorem lookup_zip_exchange (n : String) (v w : Value) :
    ∀ (names : List String) (pre post : List Value),
      (names.zip (pre ++ v :: post)).lookup n
          = (names.zip (pre ++ w :: post)).lookup n
        ∨ names[pre.length]? = some n
          ∧ (names.zip (pre ++ v :: post)).lookup n = some v
          ∧ (names.zip (pre ++ w :: post)).lookup n = some w
  | [], _, _ => .inl rfl
  | a :: names, [], post => by
    by_cases ha : n = a
    · subst ha
      exact .inr ⟨rfl, List.lookup_cons_self, List.lookup_cons_self⟩
    · have hb : (n == a) = false := by simpa using ha
      left
      simp only [List.nil_append, List.zip_cons_cons, List.lookup_cons, hb]
  | a :: names, u :: pre, post => by
    by_cases ha : n = a
    · subst ha
      left
      exact List.lookup_cons_self.trans List.lookup_cons_self.symm
    · have hb : (n == a) = false := by simpa using ha
      simp only [List.cons_append, List.zip_cons_cons, List.lookup_cons, hb]
      exact lookup_zip_exchange n v w names pre post

/-- Where names are not repeated, the first item of a name is the last. -/
theorem lookup_reverse_zip (n : String) :
    ∀ {names : List String} (_ : names.Nodup) (vs : List Value),
      (names.zip vs).reverse.lookup n = (names.zip vs).lookup n
  | [], _, _ => rfl
  | _ :: _, _, [] => rfl
  | a :: names, hnodup, v :: vs => by
    obtain ⟨hfirst, hrest⟩ := List.nodup_cons.1 hnodup
    rw [List.zip_cons_cons, List.reverse_cons, List.lookup_append,
      lookup_reverse_zip n hrest vs]
    by_cases ha : n = a
    · subst ha
      have hnone : (names.zip vs).lookup n = none := by
        rw [List.lookup_eq_none_iff]
        intro p hp
        have hne : n ≠ p.1 := by
          intro heq
          apply hfirst
          rw [heq]
          exact (List.of_mem_zip hp).1
        simpa using hne
      rw [hnone, Option.none_or, List.lookup_cons_self,
        List.lookup_cons_self]
    · have hb : (n == a) = false := by simpa using ha
      simp only [List.lookup_cons, hb, List.lookup_nil, Option.or_none]

end TimedOverlay.Json.Value
