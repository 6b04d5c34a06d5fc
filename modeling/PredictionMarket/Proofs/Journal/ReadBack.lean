import PredictionMarket.Proofs.Journal.Csv
import PredictionMarket.Proofs.Time.Text

/-!
# Reading a journal back

A journal should read back as what was listed in it. It does if the texts other than the status,
which are written as they are, need no quotes, and only then.

## Main definitions

* `Journal.Use`, `Journal.written`: what is done to a journal, and the journal after it.
* `Journal.Row.IsBare`: no text of the row needs quotes, the status apart.

## Main results

* `Journal.rows_written_iff`: when a journal reads back.
* `Journal.comma_in_digest_shifts_status`: a journal that does not.
-/

namespace PredictionMarket

namespace Journal

/-- What is done to a journal: it is opened once more, or an action is listed. -/
inductive Use where
  | reopen
  | list (r : Row)

/-- The row of an action that is listed. -/
def Use.row? : Use → Option Row
  | reopen => none
  | list r => some r

/-- The text of a journal after it is used. -/
def used (text : String) : Use → String
  | .reopen => opened (some text)
  | .list r => appended text r

/-- The text of a new journal after it is used. -/
def written (uses : List Use) : String :=
  uses.foldl used (opened none)

/-- The names of the fields, one by one. -/
def names : List String :=
  ["timestamp", "market", "action", "side", "quantity", "price", "digest", "status"]

/-- No text of a row needs quotes, apart from its status. -/
def Row.IsBare (r : Row) : Prop :=
  ∀ text ∈ [r.market, r.action, r.side.getD "", r.digest.getD ""], Csv.IsBare text.toList

instance (r : Row) : Decidable r.IsBare :=
  inferInstanceAs (Decidable (∀ _ ∈ _, _))

/-- The journal is its header and a line for every record. -/
theorem toList_written (uses : List Use) :
    (written uses).toList =
      (opened none).toList ++ (uses.filterMap Use.row?).flatMap fun r => r.line.toList := by
  have hused (text : String) : (uses.foldl used text).toList =
      text.toList ++ (uses.filterMap Use.row?).flatMap fun r => r.line.toList := by
    induction uses generalizing text with
    | nil => simp
    | cons use uses ih =>
      cases use with
      | reopen => exact ih text
      | list r => rw [List.foldl_cons, ih]; simp [used, appended, Use.row?]
  exact hused _

/-! ### Which columns are bare -/

/-- A character that ends a field or opens quotes stands in no number and in no time. -/
theorem endsField_or_quote_of_not_isDigit {c : Char} (h : Csv.EndsField c ∨ c = '\"') :
    c.isDigit = false ∧ ¬Instant.IsTextChar c := by
  obtain (rfl | rfl) | rfl := h <;> decide

/-- A text is bare if its characters have a property that no character of the table's grammar has.
-/
theorem isBare_of_forall {P : Char → Prop} {text : List Char}
    (hP : ∀ c, Csv.EndsField c ∨ c = '\"' → ¬P c) (h : ∀ c ∈ text, P c) : Csv.IsBare text := by
  refine ⟨fun hhead => hP _ (.inr rfl) (h _ (List.mem_of_mem_head? hhead)), fun c hc hends => ?_⟩
  exact hP c (.inl hends) (h c hc)

/-- A time is written without commas, quotes and line breaks. -/
theorem isBare_timestamp (t : Instant) : Csv.IsBare (t.text "+00:00").toList :=
  isBare_of_forall (fun _ hc => (endsField_or_quote_of_not_isDigit hc).2) fun _ hc =>
    Instant.isTextChar_of_mem_text hc

/-- So is a number, given or left out. -/
theorem isBare_numberField (n : Option UInt64) : Csv.IsBare (numberField n).toList := by
  cases n with
  | none => decide
  | some n =>
    refine isBare_of_forall (P := fun c => c.isDigit = true) (fun c hc => ?_) fun c hc => ?_
    · rw [(endsField_or_quote_of_not_isDigit hc).1]
      decide
    · have hdigits : (numberField (some n)).toList = Nat.toDigits 10 n.toNat :=
        String.toList_ofList
      rw [hdigits] at hc
      exact Nat.isDigit_of_mem_toDigits (by decide) (by decide) hc

/-- A row is bare just if each of its columns but the status is. -/
theorem Row.isBare_iff (r : Row) : r.IsBare ↔ ∀ text ∈ r.columns, Csv.IsBare text.toList := by
  have htime := isBare_timestamp r.timestamp
  have hquantity := isBare_numberField r.quantity
  have hprice := isBare_numberField r.price
  simp only [IsBare, columns, List.forall_mem_cons, htime, hquantity, hprice, true_and]

/-! ### Reading a row -/

/-- A line is the columns and the escaped status between commas, and a line break. -/
theorem Row.toList_line (r : Row) :
    r.line.toList =
      [','].intercalate (r.columns.map String.toList ++ [(escaped r.status).toList]) ++ ['\n'] := by
  rw [line, String.toList_append, String.toList_intercalate, List.map_append]
  rfl

/-- The line of a bare row is read as one row with the fields of it. -/
theorem Row.foldl_step_line {r : Row} (h : r.IsBare) (rows : List (List (List Char))) :
    r.line.toList.foldl Csv.step ⟨rows, [], .start⟩ =
      ⟨r.fields.map String.toList :: rows, [], .start⟩ := by
  have hcolumns : List.Forall₂ Csv.Gives (r.columns.map String.toList)
      (r.columns.map String.toList) := by
    rw [List.forall₂_map_left_iff, List.forall₂_map_right_iff, List.forall₂_same]
    exact fun column hcolumn => Csv.gives_self_of_isBare (r.isBare_iff.1 h column hcolumn)
  obtain ⟨place, houtside, hfield, hread⟩ := Csv.gives_escaped r.status rows
    ((r.columns.map String.toList).reverse ++ [])
  rw [r.toList_line, List.foldl_append, Csv.foldl_step_before hcolumns (List.cons_ne_nil _ _),
    List.intercalate_singleton, hread, List.foldl_cons, List.foldl_nil, Csv.step_newline houtside,
    hfield]
  simp [fields]

/-- A row with a text in it that needs quotes is read as another one, or not at all. -/
theorem Row.spoilt_of_not_isBare {r : Row} (h : ¬r.IsBare) (rows : List (List (List Char))) :
    ∃ fields wanted rest, r.fields.map String.toList = fields.reverse ++ wanted :: rest ∧
      Csv.Spoilt rows fields wanted (r.line.toList.foldl Csv.step ⟨rows, [], .start⟩) := by
  rw [r.isBare_iff] at h
  obtain ⟨before, text, after, hsplit, hbefore, htext⟩ := Csv.exists_first_not h
  have hgives : List.Forall₂ Csv.Gives (before.map String.toList) (before.map String.toList) := by
    rw [List.forall₂_map_left_iff, List.forall₂_map_right_iff, List.forall₂_same]
    exact fun x hx => Csv.gives_self_of_isBare (hbefore x hx)
  refine ⟨(before.map String.toList).reverse, text.toList,
    after.map String.toList ++ [r.status.toList], by simp [fields, hsplit], ?_⟩
  -- The status comes after the columns, so there is a comma after each of them.
  obtain ⟨next, later, hnext⟩ := List.exists_cons_of_ne_nil (List.append_ne_nil_of_right_ne_nil
    (after.map String.toList) (List.cons_ne_nil (escaped r.status).toList []))
  rw [r.toList_line, hsplit, List.map_append, List.map_cons, List.append_assoc, List.cons_append,
    List.foldl_append, Csv.foldl_step_before hgives (List.cons_ne_nil _ _), hnext,
    List.intercalate_cons_cons, List.foldl_append, List.append_nil]
  exact ((Csv.spoilt_of_not_isBare htext).foldl_step _).foldl_step _

/-! ### Reading a journal -/

/-- The lines of bare rows are read as these rows, the last one first. -/
theorem foldl_step_lines {rs : List Row} (h : ∀ r ∈ rs, r.IsBare)
    (rows : List (List (List Char))) :
    (rs.flatMap fun r => r.line.toList).foldl Csv.step ⟨rows, [], .start⟩ =
      ⟨(rs.map fun r => r.fields.map String.toList).reverse ++ rows, [], .start⟩ := by
  induction rs generalizing rows with
  | nil => rfl
  | cons r rs ih =>
    obtain ⟨hr, hrs⟩ := List.forall_mem_cons.1 h
    rw [List.flatMap_cons, List.foldl_append, Row.foldl_step_line hr, ih hrs, List.map_cons,
      List.reverse_cons, List.append_assoc]
    rfl

/-- The header is read as the names of the columns. -/
theorem foldl_step_opened :
    (opened none).toList.foldl Csv.step ⟨[], [], .start⟩ =
      ⟨[names.map String.toList], [], .start⟩ := by
  rfl

/-- Rows are compared as lists of characters, the way they are read. -/
theorem rows_eq_map_iff (text : String) (wanted : List (List String)) :
    Csv.rows text = wanted ↔
      (text.toList.foldl Csv.step ⟨[], [], .start⟩).rows.reverse =
        wanted.map (List.map String.toList) := by
  have hread (row : List String) : (row.map String.toList).map String.ofList = row := by
    simp [Function.comp_def]
  have hwrite (row : List (List Char)) : (row.map String.ofList).map String.toList = row := by
    simp [Function.comp_def]
  unfold Csv.rows
  constructor
  · rintro rfl
    simp only [List.map_map, Function.comp_def, hwrite, List.map_id']
  · intro h
    simp only [h, List.map_map, Function.comp_def, hread, List.map_id']

/-- A journal whose rows are bare is read back as the names and the fields of all its records. -/
theorem rows_written {uses : List Use} (h : ∀ r ∈ uses.filterMap Use.row?, r.IsBare) :
    Csv.rows (written uses) = names :: (uses.filterMap Use.row?).map Row.fields := by
  rw [rows_eq_map_iff, toList_written, List.foldl_append, foldl_step_opened, foldl_step_lines h]
  simp

/-- A new journal reads back as its header and one row for every action that was listed, with the
texts and the numbers of the action as fields, exactly if no text but the status has a comma or a
line feed in it or starts with a quote. Opening the journal once more changes nothing. -/
theorem rows_written_iff (uses : List Use) :
    let listed := uses.filterMap Use.row?
    Csv.rows (written uses) = names :: listed.map Row.fields ↔ ∀ r ∈ listed, r.IsBare := by
  intro listed
  refine ⟨fun heq => ?_, rows_written⟩
  have htext : (written uses).toList =
      (opened none).toList ++ listed.flatMap fun r => r.line.toList := toList_written uses
  rw [rows_eq_map_iff, htext, List.foldl_append, foldl_step_opened] at heq
  by_contra hnot
  obtain ⟨before, r, after, hsplit, hbefore, hr⟩ := Csv.exists_first_not hnot
  obtain ⟨fields, wanted, rest, hfields, hspoilt⟩ := Row.spoilt_of_not_isBare hr
    ((before.map fun r => r.fields.map String.toList).reverse ++ [names.map String.toList])
  rw [hsplit, List.flatMap_append, List.flatMap_cons, List.foldl_append, foldl_step_lines hbefore,
    List.foldl_append] at heq
  refine (hspoilt.foldl_step _).rows_ne rest (after.map fun r => r.fields.map String.toList)
    (heq.trans ?_)
  simp [hfields, Function.comp_def]

/-- A sentence with a comma, quotes and a line feed in it reads back as a status. -/
theorem sentence_reads_back_as_status :
    let r : Row :=
      { timestamp := ⟨⟨1970, 1, 1, by decide⟩, 0, 0, 0, 0, by decide⟩, market := "0xm",
        action := "buy", side := some "YES", quantity := some 10, price := none, digest := none,
        status := "error: \"busy\", try\nlater" }
    r.IsBare ∧ Csv.rows (written [.reopen, .list r, .reopen]) = [names, r.fields] := by
  intro r
  have hbare : r.IsBare := by decide
  have hread := (rows_written_iff [.reopen, .list r, .reopen]).2
  exact ⟨hbare, hread (List.forall_mem_singleton.2 hbare)⟩

/-- The text behind a comma in a digest is read as the status, and the status as a ninth field. -/
theorem comma_in_digest_shifts_status :
    let r : Row :=
      { timestamp := ⟨⟨1970, 1, 1, by decide⟩, 0, 0, 0, 0, by decide⟩, market := "0xm",
        action := "buy", side := some "YES", quantity := some 10, price := none,
        digest := some "D1,D2", status := "ok" }
    Csv.rows (written [.list r]) =
        [names, ["1970-01-01T00:00:00+00:00", "0xm", "buy", "YES", "10", "", "D1", "D2", "ok"]] ∧
      Csv.rows (written [.list r]) ≠ names :: [r].map Row.fields := by
  decide +kernel

end Journal

end PredictionMarket
