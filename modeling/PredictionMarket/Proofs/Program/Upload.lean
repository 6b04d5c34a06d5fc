import PredictionMarket.Program.Run
import PredictionMarket.Proofs.Json.Layout
import PredictionMarket.Proofs.Json.Record
import PredictionMarket.Proofs.Program.Session

/-!
# Storing a prompt

A prompt is stored as bytes, from which its texts and its time are read as they were given.

## Main definitions

* `Prompt.IsContent`: the content that is stored for texts and a time.

## Main results

* `Prompt.exists_make`: what a prompt is stored as.
* `Program.storePrompt_sends_what_was_given`: the exchanges by which texts are stored.
-/

namespace PredictionMarket

open Json Host

namespace Prompt

variable {title prompt : String} {now : Instant}

/-- The bytes of a content are those of an object with just these members: the title, for which the
default one stands if it is blank, the prompt, a text that is read as the time, and the kind. -/
def IsContent (title prompt : String) (now : Instant) (content : String) : Prop :=
  ∃ written,
    Term.ofBytes? content.toUTF8 = some (.ofMembers [
      ("title", .ofString (if Text.isAllBlank title then "AI Resolution Prompt" else title)),
      ("prompt", .ofString prompt), ("timestamp", .ofString written),
      ("type", .ofString "ai-resolution")]) ∧
    Instant.ofText? written = some now

/-- Of a blank prompt nothing is made. -/
theorem make_of_blank (h : Text.isAllBlank prompt = true) (title : String) :
    make title prompt = .error .emptyPrompt :=
  if_pos h

/-- The tree of a prompt is read from the bytes of its text. -/
theorem ofBytes?_text (p : Prompt) : Term.ofBytes? p.text.toUTF8 = some p.toTerm := by
  have hplain : p.toTerm.IsPlain 1 :=
    Term.isPlain_ofMembers (by simp [Term.isPlain_ofString, Term.isPlain_ofInstant])
  rw [Term.ofBytes?_toUTF8, text, Term.ofText?_prettyText hplain.isExact]

/-- Texts of which the prompt is not blank make a prompt at any time, and its text is what is stored
for them. -/
theorem exists_make (h : Text.isAllBlank prompt = false) (title : String) :
    ∃ asOf, make title prompt = .ok asOf ∧
      ∀ now, IsContent title prompt now (asOf now).text :=
  ⟨_, if_neg (Bool.eq_false_iff.1 h), fun now =>
    ⟨_, ofBytes?_text _, Instant.ofText?_text now (.inr rfl)⟩⟩

end Prompt

namespace Program

variable (s : Setup) (title prompt : String)

/-- Texts that make no prompt are refused. For others the clock is read, and the text of the prompt
at that time is sent to the publisher. -/
theorem runs_storePrompt_iff {es : List Exchange} {outcome : Except String Blob} :
    (storePrompt s title prompt).Runs es outcome ↔
      match Prompt.make title prompt with
      | .error e => es = [] ∧ outcome = .error e.message
      | .ok asOf => ∃ (now : Instant) (reply : Http.Reply),
        es = [⟨.now, now⟩,
            ⟨.send .publisher s.timeout (.put s.publisher.url (asOf now).text), reply⟩] ∧
          outcome = (s.publisher.stored (asOf now).text reply).mapError UploadError.message := by
  unfold storePrompt
  cases Prompt.make title prompt with
  | error e => exact Attempt.runs_throw_iff
  | ok asOf =>
    refine Attempt.runs_put_bind_iff.trans (exists_congr fun now => ?_)
    constructor
    · rintro ⟨rest, rfl, h⟩
      obtain ⟨reply, last, rfl, hlast⟩ := Attempt.runs_put_bind_iff.1 h
      obtain ⟨rfl, rfl⟩ := Attempt.runs_outcome_iff.1 hlast
      exact ⟨reply, rfl, rfl⟩
    · rintro ⟨reply, rfl, rfl⟩
      exact ⟨_, rfl, Attempt.runs_put_bind_iff.2
        ⟨reply, [], rfl, Attempt.runs_outcome_iff.2 ⟨rfl, rfl⟩⟩⟩

/-- A blank prompt is refused before anything else happens. Any other one is sent in a single
request, with a content from which it is read as it was given, and so are its title, if it is not
blank, and the time; what comes of it is up to the reply. -/
theorem storePrompt_sends_what_was_given :
    (Text.isAllBlank prompt = true →
      Prompt.make title prompt = .error .emptyPrompt ∧
      ∀ es outcome, (storePrompt s title prompt).Runs es outcome ↔
        es = [] ∧ outcome = .error UploadError.emptyPrompt.message) ∧
    (Text.isAllBlank prompt = false →
      ∃ content : Instant → String,
        (∀ now, Prompt.IsContent title prompt now (content now)) ∧
        ∀ es outcome, (storePrompt s title prompt).Runs es outcome ↔
          ∃ (now : Instant) (reply : Http.Reply), es = [⟨.now, now⟩,
              ⟨.send .publisher s.timeout (.put s.publisher.url (content now)), reply⟩] ∧
            outcome = (s.publisher.stored (content now) reply).mapError UploadError.message) := by
  refine ⟨fun h => ?_, fun h => ?_⟩
  · have hmake := Prompt.make_of_blank h title
    refine ⟨hmake, fun es outcome => (runs_storePrompt_iff s title prompt).trans ?_⟩
    rw [hmake]
  · obtain ⟨asOf, hmake, hcontent⟩ := Prompt.exists_make h title
    refine ⟨fun now => (asOf now).text, hcontent, fun es outcome => ?_⟩
    refine (runs_storePrompt_iff s title prompt).trans ?_
    rw [hmake]

/-- A prompt with quotes, control characters and space at its ends goes out in the middle of a leap
second, and one of blanks does not. -/
theorem storePrompt_of_quotes_and_of_blanks :
    let s : Setup := ⟨⟨true, ⟨"http://index", "http://app", "http://publisher", 10⟩,
      ⟨"0x11", "0x22", "0x33::usdc::USDC", "0x6"⟩, 30, .default, ⟨3, true⟩, ⟨false, ""⟩⟩,
      ⟨none, none, none, none, none⟩⟩
    let leap : Instant := ⟨⟨2016, 12, 31, rfl⟩, 23, 59, 59, 1500000000, rfl⟩
    let prompt := " Says \"yes\"\\\r\n\x00\t→ 😀\n"
    (∃ content, Prompt.IsContent "\u3000" prompt leap content ∧
      (storePrompt s "\u3000" prompt).Runs
        [⟨.now, leap⟩, ⟨.send .publisher 10 (.put s.publisher.url content), .unreachable⟩]
        (.error "Upload failed: Failed to reach Walrus publisher")) ∧
    (storePrompt s "Rain" "\n\u2003").Runs [] (.error "Prompt is empty") := by
  intro s leap prompt
  obtain ⟨-, hsent⟩ := storePrompt_sends_what_was_given s "\u3000" prompt
  obtain ⟨content, hcontent, hruns⟩ := hsent (by decide)
  obtain ⟨hrefused, -⟩ := storePrompt_sends_what_was_given s "Rain" "\n\u2003"
  obtain ⟨-, hnothing⟩ := hrefused (by decide)
  exact ⟨⟨content leap, hcontent leap, (hruns _ _).2 ⟨leap, .unreachable, rfl, rfl⟩⟩,
    (hnothing _ _).2 ⟨rfl, rfl⟩⟩

end Program

end PredictionMarket
