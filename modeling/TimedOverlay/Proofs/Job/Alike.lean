/-
Documents are read by value.

Two values correspond (`Form.Within`) if they can be brought into each
other by exchanging parts for related ones, putting members into another
order, and adding or taking out members that no record knows. What a
field is read as does not change, provided it does not for the parts that
are related (`Form.read_of_within`): an object tells a record the last
member of each name that it knows and nothing else, an array its items in
order.

Where no part is exchanged for another one, the values are alike
(`Form.Alike`). Two texts that are read as alike objects are therefore
the same document, however they are spelled
(`Document.same_of_alike`).
-/
import Mathlib
import TimedOverlay.Proofs.Job.Form

namespace TimedOverlay

open Json (Value)

-- ================================================================= lists

/-- What is made of two lists is the same if it is the same at each
place. -/
theorem filterMap_congr_at {α β : Type} {f : α → Option β}
    {as bs : List α} (hlength : as.length = bs.length)
    (h : ∀ (i : Nat) (a b : α), as[i]? = some a → bs[i]? = some b → f a = f b) :
    as.filterMap f = bs.filterMap f := by
  have hmap : as.map f = bs.map f := by
    refine List.ext_getElem (by simpa using hlength) fun i ha hb => ?_
    rw [List.getElem_map, List.getElem_map]
    exact h i _ _ (List.getElem?_eq_getElem _) (List.getElem?_eq_getElem _)
  have hsame := congrArg (List.filterMap id) hmap
  rwa [List.filterMap_map, List.filterMap_map] at hsame

/-- A name that is not repeated is looked up at its place. -/
theorem lookup_zip {α : Type} {names : List String} (hnodup : names.Nodup)
    {i : Nat} {name : String} (hi : names[i]? = some name) (vs : List α) :
    (names.zip vs).lookup name = vs[i]? := by
  induction names generalizing i vs with
  | nil => cases hi
  | cons n names ih =>
      obtain ⟨hfirst, hrest⟩ := List.nodup_cons.1 hnodup
      cases vs with
      | nil => rfl
      | cons v vs =>
          cases i with
          | zero =>
              obtain rfl := Option.some.inj hi
              exact List.lookup_cons_self
          | succ i =>
              have hne : (name == n) = false := by
                rw [beq_eq_false_iff_ne]
                rintro rfl
                exact hfirst (List.mem_of_getElem? hi)
              rw [List.zip_cons_cons, List.lookup_cons, hne]
              exact ih hrest hi vs

namespace Form

-- ======================================================== correspondence

/-- The form of a member: in a record the form of the field of that name,
if it has one. Nothing else has members that it would look into. -/
def member? (f : Form) (name : String) : Option Form :=
  if f.fields = [] then some .word else f.fields.lookup name

/-- The form of an item: that of the node or number that it is, or of the
field that it stands for. -/
def item (f : Form) (i : Nat) : Form :=
  match f with
  | .nodes => .node
  | .numbers => .number
  | f => (f.fields[i]?.map (·.2)).getD .word

variable {R : Form → Value → Value → Prop} {f g : Form} {u v w : Value}

/-- Two values that correspond as fields of a form: they are related, or
they are two objects that have the same known names, the last members of
which correspond, or two arrays of which the items do. -/
inductive Within (R : Form → Value → Value → Prop) :
    Form → Value → Value → Prop where
  | here {f : Form} {v w : Value} (h : R f v w) : Within R f v w
  | object {f : Form} {ms ns : List (String × Value)}
      (hnames : ∀ name g, f.member? name = some g →
        (Value.last? name ms).isSome = (Value.last? name ns).isSome)
      (hvalues : ∀ name g v w, f.member? name = some g →
        Value.last? name ms = some v → Value.last? name ns = some w →
          Within R g v w) :
      Within R f (.object ms) (.object ns)
  | array {f : Form} {vs ws : List Value} (hlength : vs.length = ws.length)
      (hitems : ∀ (i : Nat) (v w : Value), vs[i]? = some v →
        ws[i]? = some w → Within R (f.item i) v w) :
      Within R f (.array vs) (.array ws)

/-- Equal but for the order of members and for unknown members. -/
def Alike : Form → Value → Value → Prop := Within fun _ v w => v = w

-- =============================================================== reading

/-- The names of a record are not repeated. -/
theorem names_nodup (f : Form) : f.names.Nodup := by
  cases f <;> decide

theorem member?_of_mem {p : String × Form} (h : p ∈ f.fields) :
    f.member? p.1 = some p.2 := by
  obtain ⟨i, hi⟩ := List.getElem?_of_mem h
  have hname : f.names[i]? = some p.1 := by
    rw [names, List.getElem?_map, hi, Option.map_some]
  have hzip : f.fields = f.names.zip (f.fields.map (·.2)) := by
    rw [names, List.zip_map', List.map_id'']
    exact fun _ => rfl
  unfold member?
  rw [if_neg (List.ne_nil_of_mem h)]
  conv_lhs => rw [hzip]
  rw [lookup_zip f.names_nodup hname, List.getElem?_map, hi, Option.map_some]

/-- An item of a record has the form of the field that it stands for. -/
theorem item_of_getElem? {i : Nat} {p : String × Form}
    (h : f.fields[i]? = some p) : f.item i = p.2 := by
  unfold item
  split
  next => cases h
  next => cases h
  next => rw [h, Option.map_some, Option.getD_some]

/-- A record finds the value of a field in an array at its place. -/
theorem inner_array {i : Nat} {p : String × Form}
    (h : f.fields[i]? = some p) (vs : List Value) :
    f.inner (some (.array vs)) p.1
      = if vs.length ≤ f.names.length then vs[i]? else none := by
  have hname : f.names[i]? = some p.1 := by
    rw [names, List.getElem?_map, h, Option.map_some]
  rw [inner_eq]
  unfold inside
  rw [Option.bind_some, Value.fields?]
  split
  next => exact lookup_zip f.names_nodup hname vs
  next => rfl

/-- Two fields are read alike if both are missing, or if neither is and
their values are read alike. -/
theorem read_congr_values {a b : Option Value} (hboth : a.isSome = b.isSome)
    (h : ∀ v w, a = some v → b = some w →
      f.read (some v) = f.read (some w)) : f.read a = f.read b := by
  cases a with
  | none =>
      cases b with
      | none => rfl
      | some w => cases hboth
  | some v =>
      cases b with
      | none => cases hboth
      | some w => exact h v w rfl rfl

/-- Only a record can be read from an object. -/
theorem reads_object_of_no_fields (hf : f.fields = [])
    (ms : List (String × Value)) : f.reads (.object ms) = false := by
  cases f with
  | point | styles | data | node | document => cases hf
  | _ => rfl

/-- What is no record is read alike from two arrays whose items are. -/
theorem read_array_of_no_fields (hf : f.fields = []) {vs ws : List Value}
    (hlength : vs.length = ws.length)
    (h : ∀ (i : Nat) (v w : Value), vs[i]? = some v → ws[i]? = some w →
      (f.item i).read (some v) = (f.item i).read (some w)) :
    f.read (some (.array vs)) = f.read (some (.array ws)) := by
  cases f with
  | point | styles | data | node | document => cases hf
  | numbers => exact filterMap_congr_at hlength h
  | nodes => exact filterMap_congr_at hlength h
  | _ => rw [read_of_not_reads rfl, read_of_not_reads rfl]

/-- Values that correspond are read alike, if those are that are
related. -/
theorem read_of_within
    (hR : ∀ f v w, R f v w → f.read (some v) = f.read (some w))
    (h : Within R f v w) : f.read (some v) = f.read (some w) := by
  -- One container at a time; a record is told by the readings of its
  -- fields, of which those in an object are found by their names and those
  -- in an array by their places.
  induction h with
  | here h => exact hR _ _ _ h
  | @object f ms ns hnames hvalues ih =>
      by_cases hf : f.fields = []
      · rw [read_of_not_reads (reads_object_of_no_fields hf ms),
          read_of_not_reads (reads_object_of_no_fields hf ns)]
      · refine read_congr hf rfl fun p hp => ?_
        have hmember := member?_of_mem hp
        exact read_congr_values (hnames _ _ hmember) fun v w hv hw =>
          ih _ _ _ _ hmember hv hw
  | @array f vs ws hlength hitems ih =>
      by_cases hf : f.fields = []
      · exact read_array_of_no_fields hf hlength ih
      · refine read_congr hf ?_ fun p hp => ?_
        · simp only [inside, Option.bind_some, Value.fields?, hlength]
          split
          next => rfl
          next => rfl
        · obtain ⟨i, hi⟩ := List.getElem?_of_mem hp
          rw [inner_array hi, inner_array hi, hlength]
          split
          next =>
            refine read_congr_values ?_ fun v w hv hw => ?_
            · rw [Bool.eq_iff_iff, isSome_getElem?, isSome_getElem?, hlength]
            · have hsame := ih i v w hv hw
              rwa [item_of_getElem? hi] at hsame
          next => rfl

/-- What is alike is read alike. -/
theorem read_of_alike (h : Alike f v w) :
    f.read (some v) = f.read (some w) := by
  refine read_of_within ?_ h
  rintro f v _ rfl
  rfl

-- ============================================================= one change

/-- Two objects correspond if their look-ups of known names do. -/
theorem within_of_last? (hR : ∀ f v, R f v v)
    {ms ns : List (String × Value)}
    (h : ∀ name g, f.member? name = some g →
      Value.last? name ms = Value.last? name ns
        ∨ ∃ v w, Value.last? name ms = some v
          ∧ Value.last? name ns = some w ∧ Within R g v w) :
    Within R f (.object ms) (.object ns) := by
  refine .object (fun name g hg => ?_) fun name g v w hg hv hw => ?_
  · rcases h name g hg with hsame | ⟨v, w, hv, hw, -⟩
    · rw [hsame]
    · rw [hv, hw]
      rfl
  · rcases h name g hg with hsame | ⟨v', w', hv', hw', hinner⟩
    · rw [hv, hw] at hsame
      obtain rfl := Option.some.inj hsame
      exact .here (hR g v)
    · rw [hv] at hv'
      rw [hw] at hw'
      cases hv'
      cases hw'
      exact hinner

/-- Values correspond if they differ in one member, and its values do. -/
theorem within_member (hR : ∀ f v, R f v v) {name : String}
    (hmember : f.member? name = some g) (h : Within R g v w)
    (pre post : List (String × Value)) :
    Within R f (.object (pre ++ (name, v) :: post))
      (.object (pre ++ (name, w) :: post)) := by
  refine within_of_last? hR fun n g' hg' => ?_
  -- A later member of the same name hides the exchanged one.
  rcases Value.last?_exchange n name v w pre post with
    hsame | ⟨rfl, hv, hw⟩
  · exact .inl hsame
  · obtain rfl := Option.some.inj (hmember.symm.trans hg')
    exact .inr ⟨v, w, hv, hw, h⟩

/-- Values correspond if they differ in one item, and its values do. -/
theorem within_item (hR : ∀ f v, R f v v) (pre post : List Value)
    (h : Within R (f.item pre.length) v w) :
    Within R f (.array (pre ++ v :: post)) (.array (pre ++ w :: post)) := by
  refine .array (by simp) fun i v' w' hv hw => ?_
  by_cases hi : i = pre.length
  · subst hi
    rw [List.getElem?_append_right (Nat.le_refl _), Nat.sub_self] at hv hw
    obtain rfl := Option.some.inj hv
    obtain rfl := Option.some.inj hw
    exact h
  · have hsame : (pre ++ v :: post)[i]? = (pre ++ w :: post)[i]? := by
      rw [List.getElem?_append, List.getElem?_append]
      split
      next => rfl
      next hle =>
        obtain ⟨k, hk⟩ : ∃ k, i - pre.length = k + 1 :=
          ⟨i - pre.length - 1, by omega⟩
        rw [hk, List.getElem?_cons_succ, List.getElem?_cons_succ]
    rw [hv, hw] at hsame
    obtain rfl := Option.some.inj hsame
    exact .here (hR _ _)

-- ================================================================= alike

theorem Alike.trans (h : Alike f u v) (h' : Alike f v w) :
    Alike f u w := by
  unfold Alike at h
  induction h generalizing w with
  | here h =>
      subst h
      exact h'
  | object hnames hvalues ih =>
      cases h' with
      | here h' =>
          subst h'
          exact .object hnames hvalues
      | object hnames' hvalues' =>
          refine .object (fun name g hg =>
            (hnames name g hg).trans (hnames' name g hg)) ?_
          intro name g u w hg hu hw
          obtain ⟨v, hv⟩ := Option.isSome_iff_exists.1
            ((hnames' name g hg).trans (hw ▸ rfl))
          exact ih name g u v hg hu hv (hvalues' name g v w hg hv hw)
  | array hlength hitems ih =>
      cases h' with
      | here h' =>
          subst h'
          exact .array hlength hitems
      | array hlength' hitems' =>
          refine .array (hlength.trans hlength') fun i u w hu hw => ?_
          obtain ⟨hi, -⟩ := List.getElem?_eq_some_iff.1 hu
          have hv := List.getElem?_eq_getElem (hlength ▸ hi)
          exact ih i u _ hu hv (hitems' i _ w hv hw)

/-- The order of members does not matter where no name is repeated. -/
theorem alike_of_perm {ms ns : List (String × Value)} (h : ms.Perm ns)
    (hnodup : (ms.map (·.1)).Nodup) : Alike f (.object ms) (.object ns) :=
  within_of_last? (fun _ _ => rfl) fun name _ _ =>
    .inl (Value.last?_of_perm h hnodup name)

/-- A member that a record does not know can be taken out, or put in. -/
theorem alike_of_unknown {name : String} (h : f.member? name = none)
    (v : Value) (pre post : List (String × Value)) :
    Alike f (.object (pre ++ (name, v) :: post)) (.object (pre ++ post)) := by
  refine within_of_last? (fun _ _ => rfl) fun n g hg => .inl ?_
  have hne : name ≠ n := by
    rintro rfl
    rw [h] at hg
    cases hg
  rw [Value.last?_append, Value.last?_append, Value.last?_cons, if_neg hne,
    Option.or_none]

end Form

-- ============================================================= documents

/-- Two texts that are read as JSON objects that are equal up to the order
of members, at any level, and up to members that no record knows, in a
document, a node, a point, data or styles, are the same document, unless
a name that documents know is repeated. Neither blanks nor escapes nor
the spelling of a number play a part. So they have the same frame, the
same duration, the same factors and the same components. -/
theorem Document.same_of_alike {s t : String}
    {ms ns : List (String × Value)} (hs : Json.read s = .ok (.object ms))
    (ht : Json.read t = .ok (.object ns)) (hms : Once ms) (hns : Once ns)
    (h : Form.Alike .document (.object ms) (.object ns)) :
    ∃ d, ofText s = .ok d ∧ ofText t = .ok d := by
  have hsame := Form.read_of_alike h
  rw [ofText_of_read hs, ofText_of_read ht, repeated?_nil_iff.2 hms,
    repeated?_nil_iff.2 hns]
  exact ⟨_, rfl, congrArg Except.ok (Option.some.inj hsame).symm⟩

/-- A text on a large frame, and the same with everything that may differ:
blanks, escapes, the order of members, and a member too many in the
document, in the point and in the data. -/
theorem Document.same_of_alike_texts :
    ∃ d,
      ofText
          ("\x7b \"video_width\" : 640,\"note\":[],\"nod\\u0065s\" :[\x7b"
            ++ "\"data\":\x7b\"text\":\"\\u0061b\",\"size\":1\x7d,"
            ++ "\"position\":\x7b\"y\":2,\"z\":3,\"x\":1\x7d,"
            ++ "\"type\":\"text\"\x7d]\x7d")
        = .ok d
      ∧ ofText
          ("\x7b\"nodes\":[\x7b\"type\":\"text\","
            ++ "\"position\":\x7b\"x\":1,\"y\":2\x7d,"
            ++ "\"data\":\x7b\"text\":\"ab\"\x7d\x7d],"
            ++ "\"video_width\":640\x7d")
        = .ok d := by
  have hs : Json.read
      ("\x7b \"video_width\" : 640,\"note\":[],\"nod\\u0065s\" :[\x7b"
        ++ "\"data\":\x7b\"text\":\"\\u0061b\",\"size\":1\x7d,"
        ++ "\"position\":\x7b\"y\":2,\"z\":3,\"x\":1\x7d,"
        ++ "\"type\":\"text\"\x7d]\x7d")
      = .ok (.object [("video_width", .ofNat 640), ("note", .array []),
          ("nodes", .array [.object [
            ("data", .object [("text", .string "ab"), ("size", .ofNat 1)]),
            ("position", .object [("y", .ofNat 2), ("z", .ofNat 3),
              ("x", .ofNat 1)]),
            ("type", .string "text")]])]) := by
    cbv
  have ht : Json.read
      ("\x7b\"nodes\":[\x7b\"type\":\"text\","
        ++ "\"position\":\x7b\"x\":1,\"y\":2\x7d,"
        ++ "\"data\":\x7b\"text\":\"ab\"\x7d\x7d],"
        ++ "\"video_width\":640\x7d")
      = .ok (.object [("nodes", .array [.object [("type", .string "text"),
          ("position", .object [("x", .ofNat 1), ("y", .ofNat 2)]),
          ("data", .object [("text", .string "ab")])]]),
          ("video_width", .ofNat 640)]) := by
    cbv
  -- From the inside out: the members too many go first, then the order.
  have hdata : Form.Alike .data
      (.object [("text", .string "ab"), ("size", .ofNat 1)])
      (.object [("text", .string "ab")]) :=
    Form.alike_of_unknown (by decide) _ [_] []
  have hpoint : Form.Alike .point
      (.object [("y", .ofNat 2), ("z", .ofNat 3), ("x", .ofNat 1)])
      (.object [("x", .ofNat 1), ("y", .ofNat 2)]) :=
    .trans (Form.alike_of_unknown (by decide) _ [_] [_])
      (Form.alike_of_perm (.swap ..) (by decide))
  refine same_of_alike hs ht (by unfold Once; decide) (by unfold Once; decide)
    (.trans (Form.alike_of_unknown (by decide) _ [_] [_])
      (.trans (Form.alike_of_perm (.swap ..) (by decide)) ?_))
  have hrefl (f : Form) (v : Value) : v = v := rfl
  refine Form.within_member (g := .nodes) hrefl rfl
    (Form.within_item hrefl [] [] ?_) [] [_]
  refine Form.Alike.trans (Form.within_member (g := .data) hrefl rfl hdata [] _)
    (.trans (Form.within_member (g := .point) hrefl rfl hpoint [_] [_])
      (Form.alike_of_perm ?_ (by decide)))
  exact (List.reverse_perm _).symm

end TimedOverlay
