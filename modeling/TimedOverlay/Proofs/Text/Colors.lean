/-
The grammar of colors.

`Color.Spells` says which texts name a color and which color that is,
without a word on how they are read: a mark and three or six hexadecimal
digits, or numbers between the brackets of `rgb` or `rgba`. Reading a
color is reading this grammar (`Color.parse?_eq_some_iff`): nothing else
is taken, and of what is taken the value is known. All else follows from
the grammar. It does not see the case of letters (`Spells.of_fold`), the
literal of a color is in it (`Color.parse?_literal`), and the word for no
color is not, so paints and colors never disagree (`Color.grammar`).
-/
import TimedOverlay.Color
import TimedOverlay.Proofs.Binary64.Value
import TimedOverlay.Proofs.Text.Folding

namespace TimedOverlay

namespace Text

-- ================================================================ digits

/-- Hexadecimal digits in either case, and their values. -/
structure HexDigits (digits : List Char) (values : List Nat) : Prop where
  lower : fold digits = values.map hexDigit
  lt : ∀ n ∈ values, n < 16

theorem toNat_hexDigit : ∀ n < 16,
    (hexDigit n).toNat = if n < 10 then 48 + n else 87 + n := by
  decide

theorem hexValue?_eq (c : Char) :
    hexValue? c
      = if 48 ≤ c.toNat ∧ c.toNat ≤ 57 then some (c.toNat - 48)
        else if 97 ≤ c.toNat ∧ c.toNat ≤ 102 then some (c.toNat - 97 + 10)
        else if 65 ≤ c.toNat ∧ c.toNat ≤ 70 then some (c.toNat - 65 + 10)
        else none := by
  have hle (d e : Char) : d ≤ e ↔ d.toNat ≤ e.toNat := UInt32.le_iff_toNat_le
  unfold hexValue?
  simp only [isDigit_iff, Bool.and_eq_true, decide_eq_true_eq, hle]
  rfl

/-- A character has a value exactly if it is the digit of that value, in
either case. -/
theorem hexValue?_eq_some_iff {c : Char} {n : Nat} :
    hexValue? c = some n ↔ n < 16 ∧ c.toLower = hexDigit n := by
  rw [hexValue?_eq, ← Char.toNat_inj, toNat_toLower]
  constructor
  · intro h
    have hn : n < 16 := by
      split at h
      · obtain rfl := Option.some.inj h
        omega
      · split at h
        · obtain rfl := Option.some.inj h
          omega
        · split at h
          · obtain rfl := Option.some.inj h
            omega
          · cases h
    refine ⟨hn, ?_⟩
    rw [toNat_hexDigit n hn]
    grind
  · rintro ⟨hn, h⟩
    rw [toNat_hexDigit n hn] at h
    grind

theorem mapM_hexValue?_eq_some_iff {digits : List Char} {values : List Nat} :
    digits.mapM hexValue? = some values ↔ HexDigits digits values := by
  induction digits generalizing values with
  | nil =>
      constructor
      · intro h
        obtain rfl := Option.some.inj h
        exact ⟨rfl, by simp⟩
      · rintro ⟨h, -⟩
        obtain rfl := List.map_eq_nil_iff.1 h.symm
        rfl
  | cons c rest ih =>
      rw [List.mapM_cons]
      simp only [Option.bind_eq_bind, Option.bind_eq_some_iff,
        Option.pure_def, Option.some.injEq, hexValue?_eq_some_iff, ih]
      constructor
      · rintro ⟨n, ⟨hn, hc⟩, ns, ⟨hrest, hlt⟩, rfl⟩
        refine ⟨?_, List.forall_mem_cons.2 ⟨hn, hlt⟩⟩
        rw [fold_cons, hc, hrest]
        rfl
      · rintro ⟨h, hlt⟩
        cases values with
        | nil => cases h
        | cons n ns =>
            obtain ⟨hn, hns⟩ := List.forall_mem_cons.1 hlt
            obtain ⟨hc, hrest⟩ := List.cons.inj h
            exact ⟨n, ⟨hn, hc⟩, ns, ⟨hrest, hns⟩, rfl⟩

end Text

namespace Color

open Text (HexDigits fold split trim Blank)

-- ============================================================== channels

/-- The channel of a number: its value rounded, a half away from zero,
and held between 0 and 255. Of what is not finite only the positive
infinity counts. -/
def level (x : Binary64) : Nat :=
  match x.value? with
  | some a => (max 0 (min 255 (Binary64.roundAway a))).toNat
  | none => if x = .infinite false then 255 else 0

theorem channel_eq (x : Binary64) : channel x = .ofNat (level x) := by
  cases x with
  | nan => rfl
  | infinite s => cases s <;> rfl
  | finite s m =>
      have hvalue := Binary64.value?_finite s m
      have hround := Binary64.round?_of_value? hvalue
      unfold channel level
      rw [hvalue]
      dsimp only
      rw [hround, Option.getD_some]
      generalize Binary64.roundAway _ = n
      split
      next h => rw [min_eq_right (by omega), max_eq_left (by omega)]; rfl
      next h =>
        split
        next h' => rw [min_eq_left (by omega)]; rfl
        next h' => rw [min_eq_right (by omega), max_eq_right (by omega)]

-- =============================================================== grammar

/-- What stands in front of hexadecimal digits. -/
def marks : List (List Char) := ["#".toList, "0x".toList, "0X".toList]

/-- What stands in front of numbers, whatever the case. -/
def openings : List (List Char) := ["rgb(".toList, "rgba(".toList]

/-- The texts that name a color. In the short form every digit stands for
two of it; between brackets at least three pieces are needed, and the
ones behind the third mean nothing. -/
inductive Spells : List Char → Color → Prop where
  | short {mark digits : List Char} {r g b : Nat} (hmark : mark ∈ marks)
      (h : HexDigits digits [r, g, b]) :
      Spells (mark ++ digits)
        ⟨.ofNat (16 * r + r), .ofNat (16 * g + g), .ofNat (16 * b + b)⟩
  | long {mark digits : List Char} {r r' g g' b b' : Nat}
      (hmark : mark ∈ marks) (h : HexDigits digits [r, r', g, g', b, b']) :
      Spells (mark ++ digits)
        ⟨.ofNat (16 * r + r'), .ofNat (16 * g + g'), .ofNat (16 * b + b')⟩
  | channels {opening body p q r : List Char} {rest : List (List Char)}
      {x y z : Binary64} (hopening : fold opening ∈ openings)
      (hpieces : split ',' body = p :: q :: r :: rest)
      (hx : Binary64.numeral? (trim p) = some x)
      (hy : Binary64.numeral? (trim q) = some y)
      (hz : Binary64.numeral? (trim r) = some z) :
      Spells (opening ++ body ++ [')'])
        ⟨.ofNat (level x), .ofNat (level y), .ofNat (level z)⟩

-- =============================================================== reading

theorem ofHex?_eq_some_iff {digits : List Char} {c : Color} :
    ofHex? digits = some c
      ↔ (∃ r g b, HexDigits digits [r, g, b]
          ∧ c = ⟨.ofNat (16 * r + r), .ofNat (16 * g + g), .ofNat (16 * b + b)⟩)
        ∨ ∃ r r' g g' b b', HexDigits digits [r, r', g, g', b, b']
          ∧ c = ⟨.ofNat (16 * r + r'), .ofNat (16 * g + g'),
              .ofNat (16 * b + b')⟩ := by
  have hdouble (n : Nat) : n * 17 = 16 * n + n := by omega
  unfold ofHex?
  simp only [Option.bind_eq_bind, Option.bind_eq_some_iff,
    Text.mapM_hexValue?_eq_some_iff]
  constructor
  · rintro ⟨values, hvalues, h⟩
    split at h
    next r g b =>
      refine .inl ⟨r, g, b, hvalues, ?_⟩
      rw [← hdouble, ← hdouble, ← hdouble]
      exact (Option.some.inj h).symm
    next r r' g g' b b' =>
      refine .inr ⟨r, r', g, g', b, b', hvalues, ?_⟩
      rw [Nat.mul_comm 16, Nat.mul_comm 16, Nat.mul_comm 16]
      exact (Option.some.inj h).symm
    next => cases h
  · rintro (⟨r, g, b, hvalues, rfl⟩ | ⟨r, r', g, g', b, b', hvalues, rfl⟩)
    · refine ⟨_, hvalues, ?_⟩
      rw [← hdouble, ← hdouble, ← hdouble]
      rfl
    · refine ⟨_, hvalues, ?_⟩
      rw [Nat.mul_comm 16, Nat.mul_comm 16, Nat.mul_comm 16]
      rfl

/-- Three pieces that are numbers give the channels. -/
theorem ofChannels?_eq_some_iff {body : List Char} {c : Color} :
    ofChannels? body = some c
      ↔ ∃ p q r rest x y z, split ',' body = p :: q :: r :: rest
        ∧ Binary64.numeral? (trim p) = some x
        ∧ Binary64.numeral? (trim q) = some y
        ∧ Binary64.numeral? (trim r) = some z
        ∧ c = ⟨.ofNat (level x), .ofNat (level y), .ofNat (level z)⟩ := by
  simp only [← channel_eq]
  unfold ofChannels?
  constructor
  · intro h
    split at h
    next x y z _ heq =>
      obtain ⟨p, ps, hpieces, hx, heq⟩ := List.map_eq_cons_iff.1 heq
      obtain ⟨q, qs, rfl, hy, heq⟩ := List.map_eq_cons_iff.1 heq
      obtain ⟨r, rest, rfl, hz, -⟩ := List.map_eq_cons_iff.1 heq
      exact ⟨p, q, r, rest, x, y, z, hpieces, hx, hy, hz,
        (Option.some.inj h).symm⟩
    next => cases h
  · rintro ⟨p, q, r, rest, x, y, z, hpieces, hx, hy, hz, rfl⟩
    rw [hpieces, List.map_cons, List.map_cons, List.map_cons, hx, hy, hz]

theorem ofChannels?_fold (body : List Char) :
    ofChannels? (fold body) = ofChannels? body := by
  have hcomma (c : Char) : c.toLower = ',' ↔ c = ',' :=
    Text.toLower_eq_iff (by decide)
  have hnumber (p : List Char) :
      Binary64.numeral? (trim (fold p)) = Binary64.numeral? (trim p) := by
    rw [Text.trim_fold, Binary64.numeral?_fold]
  unfold ofChannels?
  rw [Text.split_fold hcomma, List.map_map]
  simp only [Function.comp_def, hnumber]

theorem spells_of_ofHex? {mark digits : List Char} {c : Color}
    (hmark : mark ∈ marks) (h : ofHex? digits = some c) :
    Spells (mark ++ digits) c := by
  rcases ofHex?_eq_some_iff.1 h with
    ⟨r, g, b, hvalues, rfl⟩ | ⟨r, r', g, g', b, b', hvalues, rfl⟩
  · exact .short hmark hvalues
  · exact .long hmark hvalues

theorem parse?_of_marked {s : String} {mark digits : List Char}
    (hs : trim s.toList = mark ++ digits) (hmark : mark ∈ marks) :
    parse? s = ofHex? digits := by
  unfold parse?
  rw [hs]
  simp only [marks, List.mem_cons, List.not_mem_nil, or_false] at hmark
  rcases hmark with rfl | rfl | rfl <;> rfl

/-- What opens with a letter has no mark. -/
theorem parse?_of_opening {s : String} {opening body : List Char}
    (hs : trim s.toList = opening ++ body ++ [')'])
    (hopening : fold opening ∈ openings) :
    parse? s = ofChannels? body := by
  have hclosing : fold [')'] = [')'] := rfl
  have hfolded : fold (opening ++ body ++ [')'])
      = fold opening ++ (fold body ++ [')']) := by
    rw [Text.fold_append, Text.fold_append, hclosing, List.append_assoc]
  obtain ⟨c, rest, rfl, hc⟩ :
      ∃ c rest, opening = c :: rest ∧ c.toLower = 'r' := by
    simp only [openings, List.mem_cons, List.not_mem_nil, or_false] at hopening
    rcases hopening with h | h
    all_goals
      obtain ⟨c, rest, rfl, hc, -⟩ := List.map_eq_cons_iff.1 h
      exact ⟨c, rest, rfl, hc⟩
  have hbody {t : List Char} (ht : t = fold (c :: rest ++ body ++ [')'])) :
      (Text.after? "rgba(".toList t).or (Text.after? "rgb(".toList t)
        = some (fold body ++ [')']) := by
    rw [ht, hfolded]
    simp only [openings, List.mem_cons, List.not_mem_nil, or_false] at hopening
    rcases hopening with h | h
    · rw [h]
      rfl
    · rw [h, Text.after?_eq_some_iff.2 rfl]
      rfl
  have hrest : Text.before? [')'] (fold body ++ [')']) = some (fold body) :=
    Text.before?_append _ _
  unfold parse?
  rw [hs]
  dsimp only
  split
  next heq =>
    obtain rfl := (List.cons.inj heq).1
    cases hc
  next heq =>
    obtain rfl := (List.cons.inj heq).1
    cases hc
  next heq =>
    obtain rfl := (List.cons.inj heq).1
    cases hc
  next =>
    rw [hbody rfl]
    show (Text.before? [')'] (fold body ++ [')'])).bind ofChannels? = _
    rw [hrest]
    exact ofChannels?_fold body

/-- Reading a color is reading the grammar. -/
theorem parse?_eq_some_iff {s : String} {c : Color} :
    parse? s = some c ↔ Spells (trim s.toList) c := by
  constructor
  · intro h
    generalize ht : trim s.toList = t
    unfold parse? at h
    rw [ht] at h
    dsimp only at h
    split at h
    next =>
      have hmark : "#".toList ∈ marks := by decide
      exact spells_of_ofHex? hmark h
    next =>
      have hmark : "0x".toList ∈ marks := by decide
      exact spells_of_ofHex? hmark h
    next =>
      have hmark : "0X".toList ∈ marks := by decide
      exact spells_of_ofHex? hmark h
    next =>
      obtain ⟨tail, htail, hinside⟩ := Option.bind_eq_some_iff.1 h
      obtain ⟨inner, hinner, hvalue⟩ := Option.bind_eq_some_iff.1 hinside
      rw [Text.before?_eq_some_iff.1 hinner] at htail
      obtain ⟨o, ho, hfold⟩ :
          ∃ o ∈ openings, fold t = o ++ (inner ++ [')']) := by
        rcases Option.or_eq_some_iff.1 htail with h | ⟨-, h⟩
        · exact ⟨_, by decide, Text.after?_eq_some_iff.1 h⟩
        · exact ⟨_, by decide, Text.after?_eq_some_iff.1 h⟩
      obtain ⟨opening, behind, rfl, rfl, hbehind⟩ :=
        List.map_eq_append_iff.1 hfold
      obtain ⟨body, closing, rfl, rfl, hclosing⟩ :=
        List.map_eq_append_iff.1 hbehind
      obtain ⟨d, rfl, hd⟩ := List.map_eq_singleton_iff.1 hclosing
      obtain rfl := (Text.toLower_eq_iff (by decide)).1 hd
      rw [← List.append_assoc]
      obtain ⟨p, q, r, rest, x, y, z, hpieces, hx, hy, hz, rfl⟩ :=
        ofChannels?_eq_some_iff.1 ((ofChannels?_fold body).symm.trans hvalue)
      exact .channels ho hpieces hx hy hz
  · intro h
    generalize ht : trim s.toList = t at h
    cases h with
    | short hmark hvalues =>
        rw [parse?_of_marked ht hmark]
        exact ofHex?_eq_some_iff.2 (.inl ⟨_, _, _, hvalues, rfl⟩)
    | long hmark hvalues =>
        rw [parse?_of_marked ht hmark]
        exact ofHex?_eq_some_iff.2
          (.inr ⟨_, _, _, _, _, _, hvalues, rfl⟩)
    | channels hopening hpieces hx hy hz =>
        rw [parse?_of_opening ht hopening]
        exact ofChannels?_eq_some_iff.2
          ⟨_, _, _, _, _, _, _, hpieces, hx, hy, hz, rfl⟩

-- ========================================================== consequences

theorem mem_marks_iff {mark : List Char} :
    mark ∈ marks ↔ fold mark = "#".toList ∨ fold mark = "0x".toList := by
  constructor
  · revert mark
    decide
  · rintro (h | h)
    · obtain ⟨c, rfl, hc⟩ := List.map_eq_singleton_iff.1 h
      obtain rfl := (Text.toLower_eq_iff (by decide)).1 hc
      decide
    · obtain ⟨c, rest, rfl, hc, h⟩ := List.map_eq_cons_iff.1 h
      obtain ⟨d, rfl, hd⟩ := List.map_eq_singleton_iff.1 h
      obtain rfl := (Text.toLower_eq_iff (by decide)).1 hc
      have hx : d = 'x' ∨ d = 'X' := by
        replace hd : d.toLower = 'x' := hd
        rw [← Char.toNat_inj, Text.toNat_toLower] at hd
        rw [← Char.toNat_inj, ← Char.toNat_inj]
        have hlower : 'x'.toNat = 120 := rfl
        have hupper : 'X'.toNat = 88 := rfl
        split at hd <;> omega
      rcases hx with rfl | rfl <;> decide

/-- A text spells the same color in either case. -/
theorem Spells.of_fold {s t : List Char} {c : Color} (h : Spells s c)
    (hfold : fold s = fold t) : Spells t c := by
  cases h with
  | short hmark hvalues =>
      rw [Text.fold_append] at hfold
      obtain ⟨mark, digits, rfl, hm, hd⟩ := List.map_eq_append_iff.1 hfold.symm
      replace hm : fold mark = fold _ := hm
      have hmark' : mark ∈ marks :=
        mem_marks_iff.2 (by rw [hm]; exact mem_marks_iff.1 hmark)
      exact .short hmark' ⟨hd.trans hvalues.lower, hvalues.lt⟩
  | long hmark hvalues =>
      rw [Text.fold_append] at hfold
      obtain ⟨mark, digits, rfl, hm, hd⟩ := List.map_eq_append_iff.1 hfold.symm
      replace hm : fold mark = fold _ := hm
      have hmark' : mark ∈ marks :=
        mem_marks_iff.2 (by rw [hm]; exact mem_marks_iff.1 hmark)
      exact .long hmark' ⟨hd.trans hvalues.lower, hvalues.lt⟩
  | @channels opening body _ _ _ _ _ _ _ hopening hpieces hx hy hz =>
      rw [List.append_assoc, Text.fold_append, Text.fold_append] at hfold
      obtain ⟨opening', behind, rfl, ho, hbehind⟩ :=
        List.map_eq_append_iff.1 hfold.symm
      obtain ⟨body', closing, rfl, hb, hclosing⟩ :=
        List.map_eq_append_iff.1 hbehind
      obtain ⟨d, rfl, hd⟩ := List.map_eq_singleton_iff.1 hclosing
      obtain rfl := (Text.toLower_eq_iff (by decide)).1 hd
      have hsame : ofChannels? body' = ofChannels? body := by
        rw [← ofChannels?_fold body', ← ofChannels?_fold body]
        exact congrArg ofChannels? hb
      have hchannels := ofChannels?_eq_some_iff.2
        ⟨_, _, _, _, _, _, _, hpieces, hx, hy, hz, rfl⟩
      obtain ⟨p, q, r, rest, x', y', z', hpieces', hx', hy', hz', hc⟩ :=
        ofChannels?_eq_some_iff.1 (hsame.trans hchannels)
      rw [← List.append_assoc, hc]
      have hopening' : fold opening' ∈ openings := by
        rwa [show fold opening' = fold opening from ho]
      exact .channels hopening' hpieces' hx' hy' hz'

/-- The literal of a color spells it. -/
theorem spells_literal (c : Color) : Spells c.literal.toList c := by
  have hbyte (n : UInt8) :
      UInt8.ofNat (16 * (n.toNat / 16) + n.toNat % 16) = n := by
    rw [Nat.div_add_mod, UInt8.ofNat_toNat]
  have hdigits (n : UInt8) : n.toNat / 16 < 16 ∧ n.toNat % 16 < 16 := by
    have := n.toNat_lt
    omega
  have hlower : ∀ n < 16, (Text.hexDigit n).toLower = Text.hexDigit n := by
    decide
  have hmark : "0x".toList ∈ marks := by decide
  have hvalues : HexDigits (hexPair c.red ++ hexPair c.green ++ hexPair c.blue)
      [c.red.toNat / 16, c.red.toNat % 16, c.green.toNat / 16,
        c.green.toNat % 16, c.blue.toNat / 16, c.blue.toNat % 16] :=
    ⟨by simp [hexPair, hlower, hdigits], by simp [hdigits]⟩
  have hlong := Spells.long hmark hvalues
  rw [hbyte, hbyte, hbyte] at hlong
  rw [literal, String.toList_ofList]
  simpa using hlong

/-- The characters of a literal: hexadecimal digits, and the mark of
these. -/
theorem mem_literal {c : Color} {d : Char} (h : d ∈ c.literal.toList) :
    d = 'x' ∨ ∃ k < 16, d = Text.hexDigit k := by
  have hpair {n : UInt8} (hd : d ∈ hexPair n) :
      ∃ k < 16, d = Text.hexDigit k := by
    have hn : n.toNat < 256 := n.toNat_lt
    simp only [hexPair, List.mem_cons, List.not_mem_nil, or_false] at hd
    rcases hd with rfl | rfl
    · exact ⟨_, by omega, rfl⟩
    · exact ⟨_, by omega, rfl⟩
  rw [literal, String.toList_ofList] at h
  simp only [List.cons_append, List.mem_cons, List.mem_append] at h
  rcases h with rfl | rfl | (h | h) | h
  · exact .inr ⟨0, by decide, rfl⟩
  · exact .inl rfl
  · exact .inr (hpair h)
  · exact .inr (hpair h)
  · exact .inr (hpair h)

/-- Every color is read from its literal, in which there is no blank. -/
theorem parse?_literal (c : Color) : parse? c.literal = some c := by
  have hdigit : ∀ k < 16, Text.isBlank (Text.hexDigit k) = false := by decide
  have htrim : trim c.literal.toList = c.literal.toList := by
    refine Text.trim_of_forall fun d hd => ?_
    rcases mem_literal hd with rfl | ⟨k, hk, rfl⟩
    · rfl
    · exact hdigit k hk
  rw [parse?_eq_some_iff, htrim]
  exact spells_literal c

/-- Colors are told apart by how they are written. -/
theorem literal_inj {c d : Color} (h : c.literal = d.literal) : c = d := by
  have hd := parse?_literal d
  rw [← h, parse?_literal] at hd
  exact Option.some.inj hd

/-- What spells a color starts with a mark or with `rgb`. -/
theorem Spells.head?_fold {t : List Char} {c : Color} (h : Spells t c) :
    (fold t).head? = some '#' ∨ (fold t).head? = some '0'
      ∨ (fold t).head? = some 'r' := by
  have hmarked {mark digits : List Char} (hmark : mark ∈ marks) :
      (fold (mark ++ digits)).head? = some '#'
        ∨ (fold (mark ++ digits)).head? = some '0' := by
    rw [Text.fold_append, List.head?_append]
    rcases mem_marks_iff.1 hmark with hm | hm
    · exact .inl (by rw [hm]; rfl)
    · exact .inr (by rw [hm]; rfl)
  cases h with
  | short hmark _ => exact (hmarked hmark).imp_right .inl
  | long hmark _ => exact (hmarked hmark).imp_right .inl
  | channels hopening =>
      refine .inr (.inr ?_)
      rw [Text.fold_append, Text.fold_append, List.append_assoc,
        List.head?_append]
      simp only [openings, List.mem_cons, List.not_mem_nil,
        or_false] at hopening
      rcases hopening with h | h
      · rw [h]
        rfl
      · rw [h]
        rfl

end Color

-- ================================================================ paints

theorem Paint.parse?_eq_transparent_iff {s : String} :
    parse? s = some .transparent ↔ Text.keyword s = "transparent" := by
  unfold parse?
  split
  next h => simp [h]
  next h => simp [h]

/-- The word for no color is not a color. -/
theorem Paint.parse?_eq_solid_iff {s : String} {c : Color} :
    parse? s = some (.solid c) ↔ Color.parse? s = some c := by
  unfold parse?
  split
  next hword =>
    have hfold : Text.fold (Text.trim s.toList) = "transparent".toList := by
      rw [← hword, Text.keyword, String.toList_ofList]
    constructor
    · intro h
      cases h
    · intro h
      have hhead := (Color.parse?_eq_some_iff.1 h).head?_fold
      rw [hfold] at hhead
      have hfirst : "transparent".toList.head? = some 't' := rfl
      rw [hfirst] at hhead
      rcases hhead with h' | h' | h' <;> cases h'
  next => simp

-- ================================================================ colors

namespace Color

open Text (HexDigits fold split trim Blank)

/-- A text is read as a color exactly if it spells one between blanks, and
then as that one. So neither blanks around it nor the case of its letters
make a difference, and every color is read from its literal. A paint is
the color that the text names, but for the texts that say that there is
none. -/
theorem grammar :
    (∀ s c, parse? s = some c ↔ Spells (trim s.toList) c)
      ∧ (∀ b s b', Blank b → Blank b' →
        parse? (.ofList (b ++ s ++ b')) = parse? (.ofList s))
      ∧ (∀ s t, fold s = fold t → parse? (.ofList s) = parse? (.ofList t))
      ∧ (∀ c : Color, parse? c.literal = some c)
      ∧ (∀ s c, Paint.parse? s = some (.solid c) ↔ parse? s = some c)
      ∧ ∀ s, Paint.parse? s = some .transparent
        ↔ Text.keyword s = "transparent" := by
  have hread := @parse?_eq_some_iff
  refine ⟨fun _ _ => hread, ?_, ?_, parse?_literal,
    fun _ _ => Paint.parse?_eq_solid_iff,
    fun _ => Paint.parse?_eq_transparent_iff⟩
  · intro b s b' hb hb'
    refine Option.ext fun c => ?_
    rw [hread, hread, String.toList_ofList, String.toList_ofList,
      Text.trim_surrounded hb hb']
  · intro s t hfold
    have htrim : fold (trim s) = fold (trim t) := by
      rw [← Text.trim_fold, ← Text.trim_fold, hfold]
    refine Option.ext fun c => ?_
    rw [hread, hread, String.toList_ofList, String.toList_ofList]
    exact ⟨fun h => h.of_fold htrim, fun h => h.of_fold htrim.symm⟩

/-- Capital letters, blanks, a half, what is no number and a piece too
many. -/
theorem grammar_shouted :
    Blank ['\t'] ∧ Blank [' ', Char.ofNat 0x3000]
      ∧ fold "RGBA(12, 34.5,NaN,)".toList = fold "rgba(12, 34.5,nan,)".toList
      ∧ parse? (.ofList (['\t'] ++ "RGBA(12, 34.5,NaN,)".toList
          ++ [' ', Char.ofNat 0x3000])) = some ⟨12, 35, 0⟩ := by
  obtain ⟨-, hblanks, hcase, -⟩ := grammar
  have hstart : Blank ['\t'] := by decide
  have hend : Blank [' ', Char.ofNat 0x3000] := by decide
  have hfold : fold "RGBA(12, 34.5,NaN,)".toList
      = fold "rgba(12, 34.5,nan,)".toList := by decide
  refine ⟨hstart, hend, hfold, ?_⟩
  rw [hblanks _ _ _ hstart hend, hcase _ _ hfold]
  decide +kernel

end Color

end TimedOverlay
