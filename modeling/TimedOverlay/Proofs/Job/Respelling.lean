/-
A number and its text are the same number.

A job document may hold a number as JSON writes it, or as a text that
spells it, with blanks around it and a unit behind it. A text is read as
the double nearest to the number that is spelled, signed zeros and numbers
beyond 53 bits included (`value?_of_spells`). The reader of JSON rounds
some numbers twice, and that it does not do so to the one at hand is an
assumption here (`Json.Literal.RoundedOnce`). Then it makes no difference
which of these it is, and a document stays the same when numbers in it are
exchanged for their texts (`Document.same_of_respelled`), at any place
where a number is looked for. At other places, an identifier for one, a
number is no such number, and its text would be another one.
-/
import TimedOverlay.Proofs.Job.Admission
import TimedOverlay.Proofs.Job.Alike
import TimedOverlay.Proofs.Json.Numeral

namespace TimedOverlay

open Json (Value Numeral)
open Text (Blank)

-- ============================================================== numbers

namespace Json.Numeral

variable (n : Numeral)

theorem isBlank_of_head?_chars {c : Char} (h : n.chars.head? = some c) :
    Text.isBlank c = false := by
  rcases n.head?_chars h with rfl | hdigit
  · rfl
  · exact Text.isBlank_of_isDigit hdigit

/-- The texts that mean a numeral: the numeral itself, or a length in
pixels, and blanks. -/
inductive Spells : String → Prop where
  | number (b b' : List Char) (hb : Blank b) (hb' : Blank b') :
      Spells (String.ofList (b ++ n.chars ++ b'))
  | length (b b' b'' : List Char) (hb : Blank b) (hb' : Blank b')
      (hb'' : Blank b'') :
      Spells (String.ofList (b ++ n.chars ++ b' ++ ['p', 'x'] ++ b''))

variable {n}

theorem trim_chars {b b' : List Char} (hb : Blank b) (hb' : Blank b') :
    Text.trim (b ++ n.chars ++ b') = n.chars :=
  Text.trim_between hb hb' n.chars_ne_nil
    (fun _ h => n.isBlank_of_head?_chars h)
    fun _ h => Text.isBlank_of_isDigit (n.getLast?_chars h)

/-- Blanks before the unit are inside, and stay. -/
theorem trim_length {b b'' : List Char} (hb : Blank b) (hb'' : Blank b'')
    (b' : List Char) :
    Text.trim (b ++ n.chars ++ b' ++ ['p', 'x'] ++ b'')
      = n.chars ++ b' ++ ['p', 'x'] := by
  have hne : n.chars ++ b' ++ ['p', 'x'] ≠ [] := by simp
  have htrim := Text.trim_between hb hb'' hne
    (fun c hc => ?_) fun c hc => ?_
  · simpa only [List.append_assoc] using htrim
  · rw [List.append_assoc, List.head?_append_of_ne_nil _ n.chars_ne_nil] at hc
    exact n.isBlank_of_head?_chars hc
  · rw [List.getLast?_append] at hc
    obtain rfl := Option.some.inj hc
    rfl

/-- A numeral has no unit to take off. -/
theorem before?_unit : Text.before? ['p', 'x'] n.chars = none := by
  have hlast := List.getLast?_eq_some_getLast n.chars_ne_nil
  refine Text.before?_of_getLast? rfl hlast ?_
  intro hx
  have hdigit := n.getLast?_chars hlast
  rw [← hx] at hdigit
  cases hdigit

/-- Nothing is left of a text but the numeral that it means. -/
theorem withoutUnit_of_spells {s : String} (h : n.Spells s) :
    LooseNumber.withoutUnit s.toList = n.chars := by
  unfold LooseNumber.withoutUnit
  cases h with
  | number b b' hb hb' =>
      have htrim := trim_chars (n := n) Text.blank_nil Text.blank_nil
      rw [List.nil_append, List.append_nil] at htrim
      rw [String.toList_ofList, trim_chars hb hb']
      dsimp only
      rw [before?_unit, Option.getD_none, htrim]
  | length b b' b'' hb hb' hb'' =>
      have htrim := trim_chars (n := n) Text.blank_nil hb'
      rw [List.nil_append] at htrim
      rw [String.toList_ofList, trim_length hb hb'']
      dsimp only
      rw [Text.before?_append, Option.getD_some, htrim]

theorem value?_of_spells {s : String} (h : n.Spells s) :
    (LooseNumber.ofValue (.string s)).value?
      = (some n.nearest).filter Binary64.isFinite := by
  unfold LooseNumber.value? LooseNumber.ofValue
  dsimp only
  rw [withoutUnit_of_spells h, n.numeral?_chars]

/-- The number that JSON reads is the one that is spelled. -/
theorem value?_of_read (honce : n.literal.RoundedOnce) {v : Value}
    (h : Json.read (String.ofList n.chars) = .ok v) :
    (LooseNumber.ofValue v).value?
      = (some n.nearest).filter Binary64.isFinite := by
  obtain ⟨k, hk, hnearest⟩ := exists_read honce
  obtain rfl := Except.ok.inj (hk.symm.trans h)
  unfold LooseNumber.value? LooseNumber.ofValue
  dsimp only
  rw [hnearest]

end Json.Numeral

-- ========================================================= one exchange

namespace Form

/-- Two values that differ in one part: the part of the first that is
exchanged, and what stands for it in the second, are related at the form
of its place. -/
inductive Exchanged (R : Form → Value → Value → Prop) :
    Form → Value → Value → Prop where
  | here {f : Form} {v w : Value} (h : R f v w) : Exchanged R f v w
  | member {f g : Form} {name : String} {v w : Value}
      (pre post : List (String × Value)) (hname : f.member? name = some g)
      (h : Exchanged R g v w) :
      Exchanged R f (.object (pre ++ (name, v) :: post))
        (.object (pre ++ (name, w) :: post))
  | item {f : Form} {v w : Value} (pre post : List Value)
      (h : Exchanged R (f.item pre.length) v w) :
      Exchanged R f (.array (pre ++ v :: post))
        (.array (pre ++ w :: post))

variable {R : Form → Value → Value → Prop} {f : Form} {v w : Value}

/-- An exchange is a correspondence in which all else stays. -/
theorem Exchanged.within (h : Exchanged R f v w) :
    Within (fun f v w => v = w ∨ R f v w) f v w := by
  induction h with
  | here h => exact .here (.inr h)
  | member pre post hname _ ih =>
      exact within_member (fun _ _ => .inl rfl) hname ih pre post
  | item pre post _ ih =>
      exact within_item (fun _ _ => .inl rfl) pre post ih

theorem read_of_exchanged
    (hR : ∀ f v w, R f v w → f.read (some v) = f.read (some w))
    (h : Exchanged R f v w) : f.read (some v) = f.read (some w) := by
  refine read_of_within (fun f v w hvw => ?_) h.within
  rcases hvw with rfl | hvw
  · rfl
  · exact hR f v w hvw

/-- A number that JSON rounds once, and a text that means it, where a
number is looked for. -/
inductive Respelled : Form → Value → Value → Prop where
  | number {n : Numeral} {v : Value} {s : String}
      (honce : n.literal.RoundedOnce)
      (hv : Json.read (String.ofList n.chars) = .ok v) (hs : n.Spells s) :
      Respelled .number v (.string s)

theorem read_of_respelled (h : Respelled f v w) :
    f.read (some v) = f.read (some w) := by
  cases h with
  | number honce hv hs =>
      show Loose.number? (some v) = Loose.number? (some (.string _))
      rw [Loose.number?, Option.bind_some, Numeral.value?_of_read honce hv,
        Loose.number?, Option.bind_some, Numeral.value?_of_spells hs]

end Form

-- ============================================================ documents

namespace Document

theorem read_array {vs : List Value} (h : vs.length ≤ names.length) :
    Form.document.read (some (.array vs))
      = some (ofFields fun name => (names.zip vs).lookup name) :=
  congrArg (Option.map ofFields) (if_pos h)

/-- Values are the same document, or refused for the same reason, if they
differ in a field only, and that is read alike. -/
theorem ofValue_of_exchanged {R : Form → Value → Value → Prop}
    (hR : ∀ f v w, R f v w → f.read (some v) = f.read (some w))
    (hinside : ∀ v w, ¬ R .document v w) {v w : Value}
    (h : Form.Exchanged R .document v w) : ofValue v = ofValue w := by
  have hsame := Form.read_of_exchanged hR h
  cases h with
  | here h => exact absurd h (hinside _ _)
  | @member _ _ name v w pre post _ _ =>
      have hrepeated : repeated? [] (pre ++ (name, v) :: post)
          = repeated? [] (pre ++ (name, w) :: post) :=
        repeated?_congr (by simp) []
      unfold ofValue
      dsimp only
      rw [hrepeated, show ofFields _ = ofFields _ from Option.some.inj hsame]
  | @item _ v w pre post _ =>
      have hlength : (pre ++ v :: post).length
          = (pre ++ w :: post).length := by simp
      unfold ofValue
      dsimp only
      rw [← hlength]
      split
      next hfits =>
        rw [read_array hfits, read_array (hlength ▸ hfits)] at hsame
        exact congrArg Except.ok (Option.some.inj hsame)
      next => rfl

theorem ofValue_of_respelled {v w : Value}
    (h : Relation.ReflTransGen
      (Form.Exchanged Form.Respelled .document) v w) :
    ofValue v = ofValue w := by
  induction h with
  | refl => rfl
  | tail _ hlast ih =>
      refine ih.trans (ofValue_of_exchanged
        (fun _ _ _ => Form.read_of_respelled) (fun v w hvw => ?_) hlast)
      cases hvw

/-- A number and its text are the same number: from a JSON text that is a
numeral, the double nearest to which is finite, just this double is read,
and the same, bit for bit, from every string that means the numeral. So
texts that are read as the same JSON value, but for numbers in place of
which there are strings that mean them, are the same job document, with
the same frame, duration, factors and components, or are both none. This
goes for any number of exchanges, wherever a document looks for a
number. That the reader of JSON gives the nearest double, other than for
whole numbers of 64 bits, is assumed of each numeral that it reads; it does
so whenever the digits and the power of ten are doubles themselves
(`Json.Literal.roundedOnce_of_exact`). -/
theorem same_of_respelled :
    (∀ n : Numeral, n.nearest.isFinite = true →
      (n.literal.RoundedOnce →
        ∃ k, Json.read (String.ofList n.chars) = .ok (.number k)
          ∧ (LooseNumber.ofValue (.number k)).value? = some n.nearest)
        ∧ ∀ s, n.Spells s →
          (LooseNumber.ofValue (.string s)).value? = some n.nearest)
      ∧ ∀ (s t : String) (v w : Value), Json.read s = .ok v →
        Json.read t = .ok w →
        Relation.ReflTransGen
          (Form.Exchanged Form.Respelled .document) v w →
        ofText s = ofText t := by
  constructor
  · intro n hfinite
    have hvalue : (some n.nearest).filter Binary64.isFinite
        = some n.nearest := if_pos hfinite
    refine ⟨fun honce => ?_, fun s hs => ?_⟩
    · obtain ⟨k, hread, -⟩ := Json.exists_read honce
      refine ⟨k, hread, ?_⟩
      rw [Numeral.value?_of_read honce hread, hvalue]
    · rw [Numeral.value?_of_spells hs, hvalue]
  · intro s t v w hs ht h
    rw [ofText_eq_ofValue hs, ofText_eq_ofValue ht, ofValue_of_respelled h]

/-- A whole number that no double is, as a length between a no-break space
and an ideographic one; a fraction, and that as a length; and a document in
which the place of a node and the width of the frame are written as
texts. -/
theorem same_of_respelled_texts :
    (∃ k, Json.read "9007199254740993" = .ok (.number k)
        ∧ (LooseNumber.ofValue (.number k)).value?
          = some (Binary64.ofNat 9007199254740992)
        ∧ (LooseNumber.ofValue
            (.string "\u00a09007199254740993 px\u3000")).value?
          = some (Binary64.ofNat 9007199254740992))
      ∧ (∃ k, Json.read "-1.5" = .ok (.number k)
        ∧ (LooseNumber.ofValue (.number k)).value? = some (-(3 / 2))
        ∧ (LooseNumber.ofValue (.string "-1.5px")).value? = some (-(3 / 2)))
      ∧ ofText
          ("\x7b\"video_width\":640,\"nodes\":"
            ++ "[\x7b\"position\":[1,-15]\x7d]\x7d")
        = ofText
          ("\x7b\"video_width\":\"640 px\",\"nodes\":"
            ++ "[\x7b\"position\":[1,\"-15\"]\x7d]\x7d") := by
  refine ⟨?_, ?_, ?_⟩
  · let n : Numeral := .ofDigits false
      ⟨"9007199254740993".toList, by decide, by decide +kernel⟩ (by decide)
    have hnearest : n.nearest = Binary64.ofNat 9007199254740992 := by
      decide +kernel
    have honce : n.literal.RoundedOnce :=
      Json.Literal.roundedOnce_of_whole rfl rfl (by decide +kernel)
    obtain ⟨hnumber, hspells⟩ := same_of_respelled.1 n (by
      rw [hnearest]
      decide +kernel)
    obtain ⟨k, hread, hvalue⟩ := hnumber honce
    rw [hnearest] at hvalue hspells
    refine ⟨k, hread, hvalue, hspells _ ?_⟩
    exact .length ['\u00a0'] [' '] ['\u3000'] (by decide) (by decide)
      (by decide)
  · let n : Numeral :=
      ⟨true, ⟨['1'], by decide, by decide +kernel⟩,
        some ⟨['5'], by decide, by decide +kernel⟩, none, by decide⟩
    have hnearest : n.nearest = -(3 / 2) := by decide +kernel
    have honce : n.literal.RoundedOnce :=
      Json.Literal.roundedOnce_of_exact (by decide +kernel)
        (by decide +kernel) (by decide)
    obtain ⟨hnumber, hspells⟩ := same_of_respelled.1 n (by
      rw [hnearest]
      decide +kernel)
    obtain ⟨k, hread, hvalue⟩ := hnumber honce
    rw [hnearest] at hvalue hspells
    exact ⟨k, hread, hvalue, hspells _
      (.length [] [] [] (by decide) (by decide) (by decide))⟩
  · have hs : Json.read ("\x7b\"video_width\":640,\"nodes\":"
        ++ "[\x7b\"position\":[1,-15]\x7d]\x7d")
        = .ok (.object [("video_width", .ofNat 640),
            ("nodes", .array [.object [("position",
              .array [.ofNat 1, .number (.integer (-15))])]])]) := by
      cbv
    have ht : Json.read ("\x7b\"video_width\":\"640 px\",\"nodes\":"
        ++ "[\x7b\"position\":[1,\"-15\"]\x7d]\x7d")
        = .ok (.object [("video_width", .string "640 px"),
            ("nodes", .array [.object [("position",
              .array [.ofNat 1, .string "-15"])]])]) := by
      cbv
    let width : Numeral := .ofDigits false
      ⟨"640".toList, by decide, by decide +kernel⟩ (by decide)
    let place : Numeral := .ofDigits true
      ⟨"15".toList, by decide, by decide +kernel⟩ (by decide)
    have hwidth : Form.Respelled .number (.ofNat 640) (.string "640 px") :=
      .number (n := width)
        (Json.Literal.roundedOnce_of_whole rfl rfl (by decide +kernel))
        (by cbv) (.length [] [' '] [] (by decide) (by decide) (by decide))
    have hplace : Form.Respelled .number (.number (.integer (-15)))
        (.string "-15") :=
      .number (n := place)
        (Json.Literal.roundedOnce_of_whole rfl rfl (by decide +kernel))
        (by cbv) (.number [] [] (by decide) (by decide))
    refine same_of_respelled.2 _ _ _ _ hs ht
      (.tail (.single (.member [] _ rfl (.here hwidth))) ?_)
    exact .member [_] [] rfl (.item [] [] (.member [] [] rfl
      (.item [_] [] (.here hplace))))

end Document

end TimedOverlay
