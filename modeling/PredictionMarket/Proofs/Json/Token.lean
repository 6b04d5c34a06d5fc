import Mathlib.Data.List.Chain
import PredictionMarket.Json.Token
import PredictionMarket.Proofs.Number.Digits
import PredictionMarket.Proofs.Time.Text

/-!
# Tokens that are written and read

A token in its written form is read back, whatever follows it, as long as a number is not followed
by something that could belong to it. So a sequence of tokens in which no two numbers are next to
each other is read back from their written forms without any space between them.

## Main definitions

* `Json.Token.IsExact`: tokens that have a written form of their own.
* `Json.Token.Apart`: tokens that may stand next to each other.
* `Json.Token.Lexes`: the tokens of a text.

## Main results

* `Json.Token.next?_render`: the first token of a text.
* `Json.Token.lexes_render`: a sequence of tokens.
-/

namespace PredictionMarket

namespace Json

open Instant (EndsDigits endsDigits_cons takeWhile_digits)
open Literal (isDigit_of_mem_toDigits toDigits_eq_cons value_toDigits)

/-! ### The body of a string -/

/-- The part is the character, wherever it stands. -/
def Piece.StandsFor (p : Piece) (c : Char) : Prop :=
  ∀ ps, join? (p :: ps) = (join? ps).map (c :: ·)

/-- A piece that is a character stands for it. -/
theorem Piece.standsFor_char (c : Char) : (Piece.char c).StandsFor c := fun _ => by
  rw [join?]

/-- A unit below the surrogates is a character, even if another unit follows. -/
theorem Piece.standsFor_unit {c : Char} (h : c.toNat < 0xd800) :
    (Piece.unit c.toNat).StandsFor c := by
  have hhigh : isHigh c.toNat = false := by
    rw [isHigh, decide_eq_false (by omega), Bool.false_and]
  have hlow : isLow c.toNat = false := by
    rw [isLow, decide_eq_false (by omega), Bool.false_and]
  intro ps
  obtain _ | ⟨_ | _, ps⟩ := ps <;> simp [join?, hhigh, hlow]

/-- The fraction of a number consists of digits. -/
def Number.IsExact (n : Number) : Prop :=
  ∀ c ∈ n.fraction, c.isDigit = true

namespace Token

/-- The four digits of a control character are read as its number. -/
theorem hexUnit?_control {n : Nat} (h : n < 0x20) :
    hexUnit? '0' '0' (Nat.digitChar (n / 16)) (Nat.digitChar (n % 16)) = some n := by
  revert n
  decide

/-- A text that starts with one part of a string body. -/
def StartsWith (p : Piece) (written : List Char) : Prop :=
  ∀ cs, pieces? (written ++ cs) = (pieces? cs).bind fun (ps, rest) => some (p :: ps, rest)

/-- A backslash and the letter of an escape are read as the character. -/
theorem startsWith_escape {e c : Char} (h : escape? e = some c) :
    StartsWith (.char c) ['\\', e] := by
  have hunit : e ≠ 'u' := by
    rintro rfl
    cases h
  intro cs
  rw [List.cons_append, List.singleton_append, pieces?, h]
  · rfl
  · rintro a b c d rest heq
    exact absurd heq hunit

/-- A control character in four digits is read as its unit. -/
theorem startsWith_control {n : Nat} (h : n < 0x20) :
    StartsWith (.unit n)
      ['\\', 'u', '0', '0', Nat.digitChar (n / 16), Nat.digitChar (n % 16)] := by
  intro cs
  simp only [List.cons_append, List.nil_append]
  rw [pieces?, hexUnit?_control h]
  rfl

/-- Any other character is read as itself. -/
theorem startsWith_char {c : Char} (hquote : c ≠ '\"') (hbackslash : c ≠ '\\')
    (hcontrol : ¬ c.toNat < 0x20) : StartsWith (.char c) [c] := by
  intro cs
  rw [List.singleton_append, pieces?, if_neg hcontrol]
  · rfl
  · exact hquote
  · exact fun _ _ _ _ _ heq => absurd heq hbackslash
  · exact fun _ _ heq => absurd heq hbackslash

/-- A written character is one part of a string body. -/
theorem startsWith_renderChar (c : Char) :
    ∃ p : Piece, p.StandsFor c ∧ StartsWith p (renderChar c) := by
  unfold renderChar
  simp only [beq_iff_eq]
  split_ifs with hquote hbackslash hback htab hline hfeed hreturn hcontrol
  iterate 7
    · subst c
      exact ⟨_, Piece.standsFor_char _, startsWith_escape rfl⟩
  · exact ⟨_, Piece.standsFor_unit (by omega), startsWith_control hcontrol⟩
  · exact ⟨_, Piece.standsFor_char c, startsWith_char hquote hbackslash hcontrol⟩

theorem renderChar_of_isDigit {c : Char} (h : c.isDigit = true) : renderChar c = [c] := by
  have hcontrol : ¬ c.toNat < 0x20 := by
    have hle : 48 ≤ c.toNat ∧ c.toNat ≤ 57 := by
      simpa [Char.isDigit, UInt32.le_iff_toNat_le] using h
    omega
  unfold renderChar
  simp only [beq_iff_eq, if_neg hcontrol]
  split_ifs
  iterate 7
    · subst c
      cases h
  · rfl

/-- Digits stand for themselves in a string. -/
theorem renderText_of_isDigit {s : String} (h : ∀ c ∈ s.toList, c.isDigit = true) :
    renderText (some s) = '\"' :: s.toList ++ ['\"'] := by
  have hsame : s.toList.flatMap renderChar = s.toList := by
    rw [List.flatMap_congr fun c hc => renderChar_of_isDigit (h c hc)]
    exact List.flatMap_singleton' _
  rw [renderText, hsame]

/-- The written form of characters is read back as these characters. -/
theorem pieces?_flatMap (cs rest : List Char) : ∃ ps,
    pieces? (cs.flatMap renderChar ++ '\"' :: rest) = some (ps, rest) ∧
      Piece.join? ps = some cs := by
  induction cs with
  | nil => exact ⟨[], by rw [List.flatMap_nil, List.nil_append, pieces?], rfl⟩
  | cons c cs ih =>
    obtain ⟨ps, hread, hjoin⟩ := ih
    obtain ⟨p, hp, hstarts⟩ := startsWith_renderChar c
    refine ⟨p :: ps, ?_, ?_⟩
    · rw [List.flatMap_cons, List.append_assoc, hstarts, hread]
      rfl
    · rw [hp, hjoin]
      rfl

/-! ### Numbers -/

/-- Only zero is written with a zero in front. -/
theorem head?_toDigits_ne_zero {n : Nat} (h : 0 < n) :
    (Nat.toDigits 10 n).head? ≠ some '0' := by
  induction n using Nat.strong_induction_on with
  | _ n ih =>
    rw [Nat.toDigits_eq_if (by decide)]
    split_ifs with hlt
    · have hdigits : ∀ n < 10, 0 < n → [Nat.digitChar n].head? ≠ some '0' := by decide
      exact hdigits n hlt h
    · rw [List.head?_append_of_ne_nil _ Nat.toDigits_ne_nil]
      exact ih (n / 10) (Nat.div_lt_self h (by decide)) (by omega)

variable {rest : List Char}

/-- Digits are read up to the end of them. -/
theorem someDigits?_append {ds : List Char} (hne : ds ≠ []) (hds : ∀ c ∈ ds, c.isDigit = true)
    (h : EndsDigits rest) : someDigits? (ds ++ rest) = some (ds, rest) := by
  unfold someDigits? Literal.digits
  rw [takeWhile_digits hds h, List.dropWhile_append_of_pos hds, h.dropWhile]
  simp [hne]

/-- The digits of a number are read as these digits. -/
theorem someDigits?_toDigits (n : Nat) (h : EndsDigits rest) :
    someDigits? (Nat.toDigits 10 n ++ rest) = some (Nat.toDigits 10 n, rest) :=
  someDigits?_append Nat.toDigits_ne_nil (fun _ => isDigit_of_mem_toDigits) h

/-- The digits of a number are read as the number, without a zero in front. -/
theorem whole?_toDigits (n : Nat) (h : EndsDigits rest) :
    whole? (Nat.toDigits 10 n ++ rest) = some (n, rest) := by
  obtain rfl | hpos := Nat.eq_zero_or_pos n
  · rfl
  · unfold whole?
    split
    · next hzero =>
      have hhead := head?_toDigits_ne_zero hpos
      rw [← List.head?_append_of_ne_nil (Nat.toDigits 10 n) Nat.toDigits_ne_nil, hzero] at hhead
      exact absurd rfl hhead
    · simp only [someDigits?_toDigits n h, Option.map_some, value_toDigits]

/-- The exponent is read from its digits and its sign. -/
theorem exponentBody?_render (e : Int) (h : EndsDigits rest) :
    exponentBody? (renderExponent e ++ rest) = some (e, rest) := by
  unfold renderExponent
  split_ifs with hneg
  · have hvalue : -(e.natAbs : Int) = e := by omega
    simp only [List.cons_append, exponentBody?, someDigits?_toDigits _ h, Option.map_some,
      value_toDigits, hvalue]
  · have hvalue : (e.natAbs : Int) = e := by omega
    change Option.map _ (someDigits? (Nat.toDigits 10 e.natAbs ++ rest)) = _
    simp only [someDigits?_toDigits _ h, Option.map_some, value_toDigits, hvalue]

/-- The text goes on with nothing that a number could go on with. -/
def EndsNumber (rest : List Char) : Prop :=
  ∀ c ∈ rest.head?, c.isDigit = false ∧ c ≠ '.' ∧ c ≠ 'e' ∧ c ≠ 'E'

/-- The text goes on with nothing that a fraction could go on with, or start with. -/
def EndsFraction (rest : List Char) : Prop :=
  ∀ c ∈ rest.head?, c.isDigit = false ∧ c ≠ '.'

/-- What ends a fraction ends its digits. -/
theorem EndsFraction.endsDigits (h : EndsFraction rest) : EndsDigits rest := by
  cases rest with
  | nil => rfl
  | cons c rest => exact endsDigits_cons (h c rfl).1 rest

/-- What ends a number ends its fraction. -/
theorem EndsNumber.endsFraction (h : EndsNumber rest) : EndsFraction rest :=
  fun c hc => ⟨(h c hc).1, (h c hc).2.1⟩

/-- The end of a number, from the letter of its exponent on. -/
def renderPower (exponent : Option Int) : List Char :=
  exponent.elim [] fun e => 'e' :: renderExponent e

/-- The fraction of a number with its point. -/
def renderFraction (ds : List Char) : List Char :=
  if ds.isEmpty then [] else '.' :: ds

/-- A number is its sign, its whole part, its fraction and its power. -/
theorem renderNumber_eq (n : Number) :
    renderNumber n = (if n.negative then ['-'] else []) ++
      (Nat.toDigits 10 n.whole ++ (renderFraction n.fraction ++ renderPower n.exponent)) := by
  unfold renderNumber renderFraction renderPower
  cases n.exponent <;> simp only [List.append_assoc, Option.elim]

/-- The power is read from what it was rendered as. -/
theorem exponent?_renderPower (exponent : Option Int) (h : EndsNumber rest) :
    exponent? (renderPower exponent ++ rest) = some (exponent, rest) := by
  cases exponent with
  | none =>
    cases rest with
    | nil => rfl
    | cons c rest =>
      obtain ⟨-, -, hlower, hupper⟩ := h c rfl
      simp [renderPower, exponent?, hlower, hupper]
  | some e =>
    simp [renderPower, exponent?, exponentBody?_render e h.endsFraction.endsDigits]

/-- A power, or what comes after the number, ends the fraction. -/
theorem endsFraction_renderPower (exponent : Option Int) (h : EndsNumber rest) :
    EndsFraction (renderPower exponent ++ rest) := by
  cases exponent with
  | none => exact h.endsFraction
  | some e =>
    rintro c ⟨⟩
    decide

/-- The fraction is read from what it was rendered as. -/
theorem fraction?_renderFraction {ds : List Char} (hds : ∀ c ∈ ds, c.isDigit = true)
    (h : EndsFraction rest) : fraction? (renderFraction ds ++ rest) = some (ds, rest) := by
  unfold renderFraction
  split_ifs with hempty
  · obtain rfl := List.isEmpty_iff.1 hempty
    cases rest with
    | nil => rfl
    | cons c rest =>
      rw [List.nil_append, fraction?]
      rintro rest heq
      exact (h c rfl).2 (List.cons.inj heq).1
  · exact someDigits?_append (fun hnil => hempty (List.isEmpty_iff.2 hnil)) hds h.endsDigits

/-- A fraction, or what comes after it, ends the digits of the whole part. -/
theorem endsDigits_renderFraction (ds : List Char) (h : EndsFraction rest) :
    EndsDigits (renderFraction ds ++ rest) := by
  unfold renderFraction
  split_ifs
  · exact h.endsDigits
  · exact endsDigits_cons (by decide) _

/-- A number without its sign is read from what it was rendered as. -/
theorem magnitude?_render {n : Number} (hn : n.IsExact) (negative : Bool) (h : EndsNumber rest) :
    magnitude? negative (Nat.toDigits 10 n.whole ++
        (renderFraction n.fraction ++ (renderPower n.exponent ++ rest))) =
      some (.number { n with negative := negative }, rest) := by
  have hpower := endsFraction_renderPower n.exponent h
  unfold magnitude?
  rw [whole?_toDigits _ (endsDigits_renderFraction _ hpower), Option.bind_eq_bind,
    Option.bind_some]
  simp only [fraction?_renderFraction hn hpower, exponent?_renderPower _ h,
    Option.bind_eq_bind, Option.bind_some]
  rfl

/-! ### Single tokens -/

/-- The token has a written form of its own: its number is in digits, its text is one. -/
def IsExact : Token → Prop
  | number n => n.IsExact
  | text t => t.isSome
  | _ => True

/-- Whether the token is a number. -/
def isNumber : Token → Bool
  | number _ => true
  | _ => false

/-- At a digit a number without a sign starts. -/
theorem next?_of_isDigit {c : Char} (h : c.isDigit = true) (cs : List Char) :
    next? (c :: cs) = magnitude? false (c :: cs) := by
  unfold next?
  split
  case h_12 => rfl
  all_goals
    next heq =>
      rw [(List.cons.inj heq).1] at h
      cases h

/-- A number is read from what it was rendered as. -/
theorem next?_renderNumber {n : Number} (hn : n.IsExact) (h : EndsNumber rest) :
    next? (renderNumber n ++ rest) = some (.number n, rest) := by
  have hread := magnitude?_render hn n.negative h
  rw [renderNumber_eq]
  simp only [List.append_assoc]
  cases hnegative : n.negative with
  | true =>
    rw [hnegative] at hread
    rw [if_pos rfl, List.singleton_append, next?, hread, ← hnegative]
  | false =>
    rw [hnegative] at hread
    obtain ⟨d, ds, hdigits, hd⟩ := toDigits_eq_cons n.whole
    rw [if_neg Bool.false_ne_true, List.nil_append, hdigits, List.cons_append,
      next?_of_isDigit hd, ← List.cons_append, ← hdigits, hread, ← hnegative]

/-- A text is read from what it was rendered as. -/
theorem next?_renderText (s : String) (rest : List Char) :
    next? (renderText (some s) ++ rest) = some (.text (some s), rest) := by
  obtain ⟨ps, hread, hjoin⟩ := pieces?_flatMap s.toList rest
  unfold renderText
  rw [List.append_assoc, List.cons_append, List.singleton_append, next?, hread]
  simp [hjoin]

/-- A written token is the first one of a text, if nothing after a number could belong to it. -/
theorem next?_render {t : Token} (ht : t.IsExact)
    (h : t.isNumber = true → EndsNumber rest) : next? (t.render ++ rest) = some (t, rest) := by
  cases t with
  | number n => exact next?_renderNumber ht (h rfl)
  | text t =>
    obtain ⟨s, rfl⟩ := Option.isSome_iff_exists.1 ht
    exact next?_renderText s rest
  | bool b => cases b <;> rfl
  | openArray | closeArray | openObject | closeObject | comma | colon | null => rfl

/-! ### Sequences of tokens -/

theorem isSpace_of_isDigit {c : Char} (h : c.isDigit = true) : isSpace c = false := by
  by_contra hspace
  simp only [isSpace, Bool.not_eq_false, Bool.or_eq_true, beq_iff_eq] at hspace
  obtain ((rfl | rfl) | rfl) | rfl := hspace <;> cases h

/-- A rendered number starts with a character that is no blank. -/
theorem renderNumber_eq_cons (n : Number) :
    ∃ c cs, renderNumber n = c :: cs ∧ isSpace c = false := by
  rw [renderNumber_eq]
  split_ifs
  · exact ⟨'-', _, rfl, by decide⟩
  · obtain ⟨d, ds, hdigits, hd⟩ := toDigits_eq_cons n.whole
    exact ⟨d, _, by rw [hdigits, List.nil_append, List.cons_append], isSpace_of_isDigit hd⟩

/-- A written token starts with a character that is no space and, unless the token is a number,
ends any number before it. -/
theorem render_eq_cons (t : Token) : ∃ c cs, t.render = c :: cs ∧ isSpace c = false ∧
    (t.isNumber = false → EndsNumber (c :: cs)) := by
  have hmark {c : Char} (hspace : isSpace c = false)
      (hc : c.isDigit = false ∧ c ≠ '.' ∧ c ≠ 'e' ∧ c ≠ 'E') (cs : List Char) :
      ∃ c' cs', c :: cs = c' :: cs' ∧ isSpace c' = false ∧
        (t.isNumber = false → EndsNumber (c' :: cs')) := by
    refine ⟨c, cs, rfl, hspace, fun _ => ?_⟩
    rintro _ ⟨⟩
    exact hc
  cases t with
  | number n =>
    obtain ⟨c, cs, hrender, hspace⟩ := renderNumber_eq_cons n
    exact ⟨c, cs, hrender, hspace, fun h => nomatch h⟩
  | text t => cases t <;> exact hmark (by decide) (by decide) _
  | bool b => cases b <;> exact hmark (by decide) (by decide) _
  | openArray | closeArray | openObject | closeObject | comma | colon | null =>
    exact hmark (by decide) (by decide) _

/-- The tokens may stand next to each other: not both are numbers. -/
def Apart (a b : Token) : Prop :=
  a.isNumber = true → b.isNumber = false

/-- What comes after a number among tokens kept apart ends it. -/
theorem endsNumber_flatMap_render {t : Token} {ts : List Token}
    (h : (t :: ts).IsChain Apart) (ht : t.isNumber = true) :
    EndsNumber (ts.flatMap render) := by
  cases ts with
  | nil => exact fun c hc => nomatch hc
  | cons u ts =>
    obtain ⟨c, cs, hrender, -, hends⟩ := render_eq_cons u
    have hapart := (List.isChain_cons_cons.1 h).1 ht
    rw [List.flatMap_cons, hrender, List.cons_append]
    exact hends hapart

/-- A text is cut into tokens, by whatever limit on its length it keeps. -/
def Lexes (cs : List Char) (ts : List Token) : Prop :=
  ∀ limit, cs.length ≤ limit → ofChars? limit cs = some ts

namespace Lexes

variable {cs : List Char} {ts : List Token}

theorem nil : Lexes [] [] := by
  rintro (_ | limit) - <;> rfl

/-- Spaces are no part of any token. -/
theorem space {c : Char} (hc : isSpace c = true) (h : Lexes cs ts) : Lexes (c :: cs) ts := by
  rintro (_ | limit) hlimit
  · cases hlimit
  · rw [ofChars?, if_pos hc]
    exact h limit (Nat.le_of_succ_le_succ hlimit)

/-- A written token in front of a text is its first one. -/
theorem token {t : Token} (ht : t.IsExact) (hends : t.isNumber = true → EndsNumber cs)
    (h : Lexes cs ts) : Lexes (t.render ++ cs) (t :: ts) := by
  obtain ⟨c, written, hrender, hspace, -⟩ := render_eq_cons t
  have hnext := next?_render ht hends
  rw [hrender, List.cons_append] at hnext ⊢
  rintro (_ | limit) hlimit
  · cases hlimit
  · rw [List.length_cons, List.length_append] at hlimit
    simp [ofChars?, hspace, hnext, h limit (by omega)]

end Lexes

/-- The written forms of tokens are read back as these tokens. -/
theorem lexes_render {ts : List Token} (hexact : ∀ t ∈ ts, t.IsExact)
    (hchain : ts.IsChain Apart) : Lexes (ts.flatMap render) ts := by
  induction ts with
  | nil => exact .nil
  | cons t ts ih =>
    rw [List.flatMap_cons]
    exact .token (hexact t List.mem_cons_self) (endsNumber_flatMap_render hchain)
      (ih (fun u hu => hexact u (List.mem_cons_of_mem t hu)) hchain.tail)

end Token

end Json

end PredictionMarket
