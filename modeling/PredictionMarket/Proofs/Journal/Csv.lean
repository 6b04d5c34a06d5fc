import Mathlib.Data.List.Forall2
import Mathlib.Data.List.TakeWhile
import PredictionMarket.Journal

/-!
# Reading comma-separated values

Which texts the reader takes for a given field, and what becomes of a field that is written as it is
although it has a comma, a line feed or a quote where it matters: whatever follows, the reader never
finds that field in its place.

## Main definitions

* `Csv.IsBare`: a text that needs no quotes.
* `Csv.Gives`: a text is taken for a field.
* `Csv.Spoilt`: the reader has read, or is about to read, another field than the one wanted.

## Main results

* `Csv.gives_self_of_isBare`, `Csv.gives_escaped`: what is read as it was meant.
* `Csv.foldl_step_before`: such texts in a row, with commas after them.
* `Csv.spoilt_of_not_isBare`: any other text written as it is spoils its field for good.
-/

namespace PredictionMarket

namespace Csv

/-- Whether a character ends a field outside quotes. -/
def EndsField (c : Char) : Prop :=
  c = ',' ∨ c = '\n'

instance (c : Char) : Decidable (EndsField c) :=
  inferInstanceAs (Decidable (_ ∨ _))

/-- The text has no comma and no line feed, and does not start with a quote. -/
def IsBare (text : List Char) : Prop :=
  text.head? ≠ some '\"' ∧ ∀ c ∈ text, ¬EndsField c

instance (text : List Char) : Decidable (IsBare text) :=
  -- The characters of the text are looked at, not all characters there are.
  have := List.decidableBAll (fun c => ¬EndsField c) text
  inferInstanceAs (Decidable (_ ∧ _))

/-- The reader is not between quotes. -/
def Place.IsOutside : Place → Prop
  | quoted _ => False
  | start | plain _ | closing _ => True

/-- At the end of the text the reader stands at the end of the field, outside quotes. -/
def Gives (text field : List Char) : Prop :=
  ∀ rows fields, ∃ place : Place, place.IsOutside ∧ place.field = field.reverse ∧
    text.foldl step ⟨rows, fields, .start⟩ = ⟨rows, fields, place⟩

/-- Where not everything has a property, there is a first thing that has not. -/
theorem exists_first_not {α : Type} {p : α → Prop} [DecidablePred p] {l : List α}
    (h : ¬∀ x ∈ l, p x) :
    ∃ before x after, l = before ++ x :: after ∧ (∀ y ∈ before, p y) ∧ ¬p x := by
  have hsome : (l.find? fun x => !decide (p x)).isSome = true := by
    by_contra hnone
    refine h fun x hx => Decidable.byContradiction fun hp => hnone ?_
    exact List.find?_isSome.2 ⟨x, hx, by simpa using hp⟩
  obtain ⟨x, hfind⟩ := Option.isSome_iff_exists.1 hsome
  obtain ⟨hx, before, after, hsplit, hbefore⟩ := List.find?_eq_some_iff_append.1 hfind
  exact ⟨before, x, after, hsplit, fun y hy => by simpa using hbefore y hy, by simpa using hx⟩

variable {rows : List (List (List Char))} {fields : List (List Char)} {text field : List Char}

/-! ### What is read as it was meant -/

/-- Outside quotes every character but a quote is taken the same way. -/
theorem step_outside {place : Place} (h : place.IsOutside) {c : Char} (hc : c ≠ '\"') :
    step ⟨rows, fields, place⟩ c = step.finish ⟨rows, fields, place⟩ c := by
  cases place with
  | quoted f => exact h.elim
  | plain f => rfl
  | start | closing f => simp [step, hc]

/-- A comma outside quotes ends the field. -/
theorem step_comma {place : Place} (h : place.IsOutside) :
    step ⟨rows, fields, place⟩ ',' = ⟨rows, place.field.reverse :: fields, .start⟩ := by
  rw [step_outside h (by decide)]
  rfl

/-- A line break outside quotes ends the field and the row. -/
theorem step_newline {place : Place} (h : place.IsOutside) :
    step ⟨rows, fields, place⟩ '\n' =
      ⟨(place.field.reverse :: fields).reverse :: rows, [], .start⟩ := by
  rw [step_outside h (by decide)]
  rfl

/-- Any other character outside quotes belongs to the field. -/
theorem finish_of_not_endsField {place : Place} {c : Char} (hc : ¬EndsField c) :
    step.finish ⟨rows, fields, place⟩ c = ⟨rows, fields, .plain (c :: place.field)⟩ := by
  obtain ⟨hcomma, hnewline⟩ := not_or.1 hc
  simp [step.finish, hcomma, hnewline]

/-- A text without commas, quotes and line breaks is read as it is. -/
theorem foldl_step_plain (h : ∀ c ∈ text, ¬EndsField c) (read : List Char) :
    text.foldl step ⟨rows, fields, .plain read⟩ =
      ⟨rows, fields, .plain (text.reverse ++ read)⟩ := by
  induction text generalizing read with
  | nil => rfl
  | cons c text ih =>
    obtain ⟨hc, htext⟩ := List.forall_mem_cons.1 h
    have hstep : step ⟨rows, fields, .plain read⟩ c = ⟨rows, fields, .plain (c :: read)⟩ :=
      finish_of_not_endsField hc
    rw [List.foldl_cons, hstep, ih htext, List.reverse_cons, List.append_assoc]
    rfl

/-- A bare field gives itself. -/
theorem gives_self_of_isBare (h : IsBare text) : Gives text text := by
  intro rows fields
  cases text with
  | nil => exact ⟨.start, trivial, rfl, rfl⟩
  | cons c text =>
    obtain ⟨hc, htext⟩ := List.forall_mem_cons.1 h.2
    have hquote : c ≠ '\"' := by simpa using h.1
    refine ⟨.plain (text.reverse ++ [c]), trivial, by simp [Place.field], ?_⟩
    have houtside : Place.start.IsOutside := trivial
    rw [List.foldl_cons, step_outside houtside hquote, finish_of_not_endsField hc]
    exact foldl_step_plain htext [c]

/-- Inside quotes a text with its quotes doubled is read as the text. -/
theorem foldl_step_doubled (text read : List Char) :
    (text.flatMap fun c => if c == '\"' then [c, c] else [c]).foldl step
        ⟨rows, fields, .quoted read⟩ =
      ⟨rows, fields, .quoted (text.reverse ++ read)⟩ := by
  induction text generalizing read with
  | nil => rfl
  | cons c text ih =>
    rw [List.flatMap_cons, List.foldl_append, List.reverse_cons, List.append_assoc]
    by_cases hc : c = '\"'
    · subst hc
      exact ih ('\"' :: read)
    · simp only [beq_eq_false_iff_ne.2 hc, Bool.false_eq_true, if_false, List.foldl_cons,
        List.foldl_nil]
      have hstep : step ⟨rows, fields, .quoted read⟩ c = ⟨rows, fields, .quoted (c :: read)⟩ := by
        simp [step, hc]
      rw [hstep]
      exact ih (c :: read)

/-- A field that was not put in quotes did not need them. -/
theorem isBare_of_needsQuotes_eq_false {field : String} (h : Journal.needsQuotes field = false) :
    IsBare field.toList := by
  simp only [Journal.needsQuotes, List.any_eq_false, Bool.or_eq_true, beq_iff_eq, not_or] at h
  refine ⟨fun hhead => ?_, fun c hc hends => ?_⟩
  · exact (h _ (List.mem_of_mem_head? hhead)).1.2 rfl
  · exact hends.elim (h c hc).1.1 (h c hc).2

/-- A field is read as it was if it is written between quotes where that is needed. -/
theorem gives_escaped (field : String) : Gives (Journal.escaped field).toList field.toList := by
  unfold Journal.escaped
  by_cases hquotes : Journal.needsQuotes field = true
  · intro rows fields
    rw [if_pos hquotes, String.toList_ofList]
    refine ⟨.closing (field.toList.reverse ++ []), trivial, List.append_nil _, ?_⟩
    rw [List.cons_append, List.foldl_cons, List.foldl_append]
    have hopen : step ⟨rows, fields, .start⟩ '\"' = ⟨rows, fields, .quoted []⟩ := rfl
    rw [hopen, foldl_step_doubled]
    rfl
  · rw [if_neg hquotes]
    exact gives_self_of_isBare (isBare_of_needsQuotes_eq_false (Bool.not_eq_true _ ▸ hquotes))

/-- The fields of a row are read one after the other, up to those that are left. -/
theorem foldl_step_before {texts wanted rest : List (List Char)}
    (h : List.Forall₂ Gives texts wanted) (hrest : rest ≠ []) (fields : List (List Char)) :
    ([','].intercalate (texts ++ rest)).foldl step ⟨rows, fields, .start⟩ =
      ([','].intercalate rest).foldl step ⟨rows, wanted.reverse ++ fields, .start⟩ := by
  induction h generalizing fields with
  | nil => rfl
  | @cons text field texts wanted hgives htexts ih =>
    obtain ⟨place, houtside, hfield, hread⟩ := hgives rows fields
    have hne : texts ++ rest ≠ [] := List.append_ne_nil_of_right_ne_nil _ hrest
    obtain ⟨next, later, hnext⟩ := List.exists_cons_of_ne_nil hne
    rw [List.cons_append, hnext, List.intercalate_cons_cons, ← hnext, List.append_assoc,
      List.foldl_append, hread, List.foldl_append, List.foldl_cons, List.foldl_nil,
      step_comma houtside, hfield, List.reverse_reverse, ih, List.reverse_cons, List.append_assoc]
    rfl

/-! ### What is not -/

/-- The reader is in the row after some rows and after some of its fields. Either the field that it
is reading there has begun in a way in which the wanted one does not, or another field than the
wanted one has been read there. -/
inductive Spoilt (rows : List (List (List Char))) (fields : List (List Char)) (wanted : List Char) :
    State → Prop
  | reading (place : Place) (h : ¬place.field.reverse <+: wanted) :
      Spoilt rows fields wanted ⟨rows, fields, place⟩
  | read {field : List Char} (h : field ≠ wanted) (more : List (List Char)) (place : Place) :
      Spoilt rows fields wanted ⟨rows, more ++ field :: fields, place⟩
  | passed {field : List Char} (h : field ≠ wanted) (rest : List (List Char))
      (later : List (List (List Char))) (current : List (List Char)) (place : Place) :
      Spoilt rows fields wanted
        ⟨later ++ (fields.reverse ++ field :: rest) :: rows, current, place⟩

/-- A character goes on with a field, or it ends the field, or also the row. -/
theorem step_cases (s : State) (c : Char) :
    (∃ place, step s c = { s with place } ∧ s.place.field.reverse <+: place.field.reverse) ∨
      step s c = { s with fields := s.place.field.reverse :: s.fields, place := .start } ∨
      step s c = ⟨(s.place.field.reverse :: s.fields).reverse :: s.rows, [], .start⟩ := by
  have hgrown (f : List Char) : f.reverse <+: (c :: f).reverse := by
    rw [List.reverse_cons]
    exact List.prefix_append _ _
  have hfinish : (∃ place, step.finish s c = { s with place } ∧
        s.place.field.reverse <+: place.field.reverse) ∨
      step.finish s c = { s with fields := s.place.field.reverse :: s.fields, place := .start } ∨
      step.finish s c = ⟨(s.place.field.reverse :: s.fields).reverse :: s.rows, [], .start⟩ := by
    by_cases hcomma : c = ','
    · exact .inr (.inl (by simp [step.finish, hcomma]))
    by_cases hnewline : c = '\n'
    · exact .inr (.inr (by simp [step.finish, hnewline]))
    · exact .inl ⟨.plain (c :: s.place.field), by simp [step.finish, hcomma, hnewline], hgrown _⟩
  obtain ⟨rows, fields, place⟩ := s
  cases place with
  | plain f => exact hfinish
  | start =>
    by_cases hquote : c = '\"'
    · exact .inl ⟨.quoted [], by simp [step, hquote], List.prefix_rfl⟩
    · simpa only [step, hquote, beq_iff_eq, if_false] using hfinish
  | closing f =>
    by_cases hquote : c = '\"'
    · exact .inl ⟨.quoted (c :: f), by simp [step, hquote], hgrown f⟩
    · simpa only [step, hquote, beq_iff_eq, if_false] using hfinish
  | quoted f =>
    by_cases hquote : c = '\"'
    · exact .inl ⟨.closing f, by simp [step, hquote], List.prefix_rfl⟩
    · exact .inl ⟨.quoted (c :: f), by simp [step, hquote], hgrown f⟩

/-- A field that the wanted one does not start with is not the wanted one. -/
theorem ne_of_not_starts {read wanted : List Char} (h : ¬read <+: wanted) : read ≠ wanted := by
  rintro rfl
  exact h List.prefix_rfl

/-- A spoilt row stays spoilt: no character takes a wrong field or a wrong beginning back. -/
theorem Spoilt.step {wanted : List Char} {s : State} (h : Spoilt rows fields wanted s) (c : Char) :
    Spoilt rows fields wanted (step s c) := by
  obtain ⟨place, heq, hgrown⟩ | heq | heq := step_cases s c
  all_goals rw [heq]
  · cases h with
    | reading _ h => exact .reading place fun hnow => h (hgrown.trans hnow)
    | read h more => exact .read h more place
    | passed h rest later current => exact .passed h rest later current place
  · cases h with
    | reading place h => exact .read (ne_of_not_starts h) [] .start
    | read h more place => exact .read h (place.field.reverse :: more) .start
    | passed h rest later current place => exact .passed h rest later _ .start
  · cases h with
    | reading place h =>
      rw [List.reverse_cons]
      exact .passed (ne_of_not_starts h) [] [] [] .start
    | @read field h more place =>
      rw [← List.cons_append, List.reverse_append, List.reverse_cons, List.append_assoc]
      exact .passed h _ [] [] .start
    | passed h rest later current place =>
      exact .passed h rest ((place.field.reverse :: current).reverse :: later) [] .start

/-- No text makes a spoilt row right again. -/
theorem Spoilt.foldl_step {wanted : List Char} {s : State} (h : Spoilt rows fields wanted s)
    (text : List Char) : Spoilt rows fields wanted (text.foldl Csv.step s) := by
  induction text generalizing s with
  | nil => exact h
  | cons c text ih => exact ih (h.step c)

/-- What is spoilt does not come out as wanted. -/
theorem Spoilt.rows_ne {wanted : List Char} {s : State} (h : Spoilt rows fields wanted s)
    (rest : List (List Char)) (later : List (List (List Char))) :
    s.rows.reverse ≠ rows.reverse ++ (fields.reverse ++ wanted :: rest) :: later := by
  intro heq
  cases h with
  | reading _ h => exact absurd (congrArg List.length heq) (by simp)
  | read h more => exact absurd (congrArg List.length heq) (by simp)
  | passed h rest' later' =>
    rw [List.reverse_append, List.reverse_cons, List.append_assoc] at heq
    have hlater := List.append_cancel_left heq
    have hrow := List.append_cancel_left (List.cons.inj hlater).1
    exact h (List.cons.inj hrow).1

/-- A run of one character that breaks off early is no beginning of the longer run. -/
theorem not_prefix_of_ne {c d : Char} (h : c ≠ d) {n k : Nat} (hlt : n < k) (rest : List Char) :
    ¬List.replicate n d ++ [c] <+: List.replicate k d ++ rest := by
  rintro ⟨more, heq⟩
  have hplace := congrArg (·[n]?) heq
  simp [List.getElem?_append, hlt] at hplace
  exact h hplace

/-- A field that ends as another than the wanted one spoils the row. -/
theorem spoilt_of_endsField {wanted : List Char} {place : Place} (houtside : place.IsOutside)
    {c : Char} (hc : EndsField c) (hne : place.field.reverse ≠ wanted) :
    Spoilt rows fields wanted (step ⟨rows, fields, place⟩ c) := by
  obtain rfl | rfl := hc
  · rw [step_comma houtside]
    exact .read hne [] .start
  · rw [step_newline houtside, List.reverse_cons]
    exact .passed hne [] [] [] .start

/-- Quotes that are written as they are: the first one opens the field, and of the others every two
are read as one, so there are too few of them when something else follows. -/
theorem spoilt_of_quotes (read : Nat) (text : List Char) :
    Spoilt rows fields (List.replicate (2 * read + 1) '\"' ++ text)
      ((text ++ [',']).foldl step ⟨rows, fields, .quoted (List.replicate read '\"')⟩) := by
  have hother {c : Char} (hc : c ≠ '\"') {k : Nat} (hlt : read < k) (rest : List Char) :
      ¬(c :: List.replicate read '\"').reverse <+: List.replicate k '\"' ++ rest := by
    rw [List.reverse_cons, List.reverse_replicate]
    exact not_prefix_of_ne hc hlt rest
  have hshort {k : Nat} (hlt : read < k) (rest : List Char) :
      (List.replicate read '\"').reverse ≠ List.replicate k '\"' ++ rest := by
    intro heq
    have hlength := congrArg List.length heq
    simp only [List.length_reverse, List.length_replicate, List.length_append] at hlength
    omega
  match text with
  | [] => exact .reading (.quoted _) (hother (by decide) (by omega) [])
  | c :: text =>
    by_cases hc : c = '\"'
    · subst hc
      rw [List.append_cons, ← List.replicate_succ']
      have hclosing : step ⟨rows, fields, .quoted (List.replicate read '\"')⟩ '\"' =
          ⟨rows, fields, .closing (List.replicate read '\"')⟩ := rfl
      have houtside : (Place.closing (List.replicate read '\"')).IsOutside := trivial
      match text with
      | [] =>
        exact spoilt_of_endsField houtside (.inl rfl) (hshort (by omega) [])
      | d :: text =>
        rw [List.cons_append, List.cons_append, List.foldl_cons, List.foldl_cons, hclosing]
        by_cases hd : d = '\"'
        · subst hd
          rw [List.append_cons, ← List.replicate_succ']
          exact spoilt_of_quotes (read + 1) text
        · refine Spoilt.foldl_step ?_ _
          by_cases hends : EndsField d
          · exact spoilt_of_endsField houtside hends (hshort (by omega) _)
          · rw [step_outside houtside hd, finish_of_not_endsField hends]
            exact .reading (.plain _) (hother hd (by omega) _)
    · have hquoted : step ⟨rows, fields, .quoted (List.replicate read '\"')⟩ c =
          ⟨rows, fields, .quoted (c :: List.replicate read '\"')⟩ := by simp [step, hc]
      rw [List.cons_append, List.foldl_cons, hquoted]
      refine Spoilt.foldl_step ?_ _
      exact .reading (.quoted _) (hother hc (by omega) _)

/-- A field that is not bare and yet is written as it is does not come out, whatever follows. -/
theorem spoilt_of_not_isBare (h : ¬IsBare text) :
    Spoilt rows fields text ((text ++ [',']).foldl step ⟨rows, fields, .start⟩) := by
  by_cases hquote : text.head? = some '\"'
  · obtain ⟨rest, rfl⟩ := List.head?_eq_some_iff.1 hquote
    exact spoilt_of_quotes 0 rest
  · -- The field is read up to the first character that ends one.
    obtain ⟨before, c, after, rfl, hbefore, hc⟩ :=
      exists_first_not (p := fun c => ¬EndsField c) fun hall => h ⟨hquote, hall⟩
    have hbare : IsBare before := by
      refine ⟨?_, hbefore⟩
      cases before with
      | nil => simp
      | cons c before => simpa using hquote
    obtain ⟨place, houtside, hfield, hread⟩ := gives_self_of_isBare hbare rows fields
    have hne : place.field.reverse ≠ before ++ c :: after := by
      rw [hfield, List.reverse_reverse]
      simp
    rw [List.append_assoc, List.foldl_append, hread, List.cons_append, List.foldl_cons]
    exact (spoilt_of_endsField houtside (not_not.1 hc) hne).foldl_step _

end Csv

end PredictionMarket
