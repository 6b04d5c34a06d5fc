import PredictionMarket.Proofs.Json.Record
import PredictionMarket.Proofs.Number.Digits
import PredictionMarket.Proofs.Transaction.Linear
import PredictionMarket.Transaction.Json

/-!
# The wire format of transactions

A transaction is read back from its JSON text as it was, and so is an argument on its own. The text
of every argument is a part of the text of its transaction, and a word of sixty-four bits is in it
as a string of decimal digits.

## Main results

* `Transaction.wireFormat_isLossless`: what is written is read back, and different transactions have
  different texts.
-/

namespace PredictionMarket

open Json

namespace Json

/-! ### Records that name their kind -/

/-- The kind of a written record is found, apart from the other members. -/
theorem Tagged.ofTerm?_ofMembers {name : String} {ms : List (String × Term)}
    (h : name ∉ ms.map Prod.fst) (tag : Term) :
    Tagged.ofTerm? name (.ofMembers ((name, tag) :: ms)) = some ⟨tag, .ofMembers ms⟩ := by
  have hother : ∀ m ∈ ms, m.1 ≠ name := fun m hm heq => h (heq ▸ List.mem_map_of_mem hm)
  have hnone : ms.filter (·.1 == name) = [] :=
    List.filter_eq_nil_iff.2 fun m hm heq => hother m hm (beq_iff_eq.1 heq)
  have hall : ms.filter (some ·.1 != some name) = ms :=
    List.filter_eq_self.2 fun m hm => bne_iff_ne.2 fun heq => hother m hm (Option.some.inj heq)
  simp [Tagged.ofTerm?, Term.ofMembers, List.filter_map, Function.comp_def, hnone, hall]

/-- The fields of a record in which all of them are written and have to be there. -/
theorem Term.fields?_ofMembers {ms : List (String × Term)} {names : List String}
    (hnames : ms.map Prod.fst = names) (h : names.Nodup) :
    (ofMembers ms).fields? names = some (ms.map Prod.snd) := by
  unfold fields?
  rw [slots?_ofMembers hnames h]
  exact mapM_map_eq_some ms fun _ _ => rfl

end Json

/-! ### Constants -/

namespace Constant

/-- A tagged constant is read by its tag and its value. -/
theorem ofTerm?_tagged (type : String) (value : Term) :
    ofTerm? (tagged type value) = ofParts? type value := by
  have hfields : (tagged type value).fields? ["type", "value"] = some _ :=
    Term.fields?_ofMembers rfl (by decide)
  rw [ofTerm?, hfields]
  rfl

/-- A constant is read back from its term. -/
theorem ofTerm?_toTerm (c : Constant) : ofTerm? c.toTerm = some c := by
  cases c with
  | u64 n =>
    rw [toTerm, ofTerm?_tagged, ofParts?, Term.string?_ofString, Option.bind_some,
      Literal.word?_toString, Option.map_some]
  | u8 | bool | string | address => simp [toTerm, ofTerm?_tagged, ofParts?]

theorem isPlain_toTerm (c : Constant) : c.toTerm.IsPlain 1 := by
  have htagged {value : Term} (type : String) (h : value.IsPlain 0) :
      (tagged type value).IsPlain 1 :=
    Term.isPlain_ofMembers (by simp [Term.isPlain_ofString, h])
  cases c with
  | u8 n => exact htagged _ (Term.isPlain_ofNat (n.toNat_lt_size.trans (by decide)))
  | bool b => exact htagged _ (Term.isPlain_bool b)
  | u64 | string | address => exact htagged _ (Term.isPlain_ofString _)

end Constant

/-! ### Arguments -/

namespace Argument

/-- The name of the kind of an argument. -/
def kindName : Argument → String
  | constant _ => "pure"
  | object _ => "object"
  | result _ _ => "nestedResult"

/-- The members of an argument after its kind. -/
def members : Argument → List (String × Term)
  | constant c => [("value", c.toTerm)]
  | object id => [("id", .ofString id)]
  | result index output => [("index", .ofNat index.toNat), ("result", .ofNat output.toNat)]

/-- An argument is its kind and the members of this kind. -/
theorem toTerm_eq (a : Argument) :
    a.toTerm = .ofMembers (("kind", .ofString a.kindName) :: a.members) := by
  cases a <;> rfl

/-- The kind and the members of an argument are read apart again. -/
theorem parts_toTerm (a : Argument) :
    Tagged.ofTerm? "kind" a.toTerm = some ⟨.ofString a.kindName, .ofMembers a.members⟩ := by
  rw [toTerm_eq]
  refine Tagged.ofTerm?_ofMembers ?_ _
  cases a <;> simp [members]

/-- An argument is read back from its kind and its members. -/
theorem ofParts?_members (a : Argument) :
    ofParts? a.kindName (.ofMembers a.members) = some a := by
  have hfields : (Term.ofMembers a.members).fields? (a.members.map Prod.fst) = some _ :=
    Term.fields?_ofMembers rfl (by cases a <;> simp [members])
  cases a <;> simp only [members, List.map_cons, List.map_nil] at hfields <;>
    simp [kindName, members, ofParts?, hfields, Constant.ofTerm?_toTerm]

theorem isPlain_toTerm (a : Argument) : a.toTerm.IsPlain 2 := by
  have hindex (n : UInt16) : n.toNat < UInt64.size := n.toNat_lt_size.trans (by decide)
  rw [toTerm_eq]
  refine Term.isPlain_ofMembers (List.forall_mem_cons.2 ⟨Term.isPlain_ofString _, ?_⟩)
  cases a with
  | constant c => simp [members, c.isPlain_toTerm]
  | object id => simp [members, Term.isPlain_ofString]
  | result index output => simp [members, Term.isPlain_ofNat (hindex _)]

/-- An argument is read back from its term. -/
theorem ofTerm?_toTerm (a : Argument) : ofTerm? a.toTerm = some a := by
  have hheld : a.toTerm.isHeld 0 = true := a.isPlain_toTerm.isHeld (by decide)
  simp [ofTerm?, parts_toTerm, hheld, ofParts?_members]

/-- An argument is read back from its term inside a command. -/
theorem ofHeldTerm?_toTerm (a : Argument) : ofHeldTerm? a.toTerm = some a := by
  simp [ofHeldTerm?, parts_toTerm, Term.ofString, Term.string?, ofParts?_members]

end Argument

/-! ### Commands -/

namespace Command

/-- The name of the kind of a command. -/
def kindName : Command → String
  | call _ _ => "moveCall"
  | split _ _ => "splitCoins"
  | merge _ _ => "mergeCoins"

/-- The members of a command after its kind. -/
def members : Command → List (String × Term)
  | call target arguments =>
    [("target", .ofString target), ("arguments", argumentsTerm arguments)]
  | split coin amounts => [("coin", coin.toTerm), ("amounts", argumentsTerm amounts)]
  | merge destination sources =>
    [("destination", destination.toTerm), ("sources", argumentsTerm sources)]

/-- A command is its kind and the members of this kind. -/
theorem toTerm_eq (c : Command) :
    c.toTerm = .ofMembers (("command", .ofString c.kindName) :: c.members) := by
  cases c <;> rfl

/-- The kind and the members of a command are read apart again. -/
theorem parts_toTerm (c : Command) :
    Tagged.ofTerm? "command" c.toTerm = some ⟨.ofString c.kindName, .ofMembers c.members⟩ := by
  rw [toTerm_eq]
  refine Tagged.ofTerm?_ofMembers ?_ _
  cases c <;> simp [members]

/-- Arguments are read back one after the other. -/
theorem list?_argumentsTerm (arguments : List Argument) :
    (argumentsTerm arguments).list? Argument.ofHeldTerm? = some arguments :=
  Term.list?_map arguments fun a _ => a.ofHeldTerm?_toTerm

/-- A command is read back from its kind and its members. -/
theorem ofParts?_members (c : Command) :
    ofParts? c.kindName (.ofMembers c.members) = some c := by
  have hfields : (Term.ofMembers c.members).fields? (c.members.map Prod.fst) = some _ :=
    Term.fields?_ofMembers rfl (by cases c <;> simp [members])
  cases c <;> simp only [members, List.map_cons, List.map_nil] at hfields <;>
    simp [kindName, members, ofParts?, hfields, Argument.ofHeldTerm?_toTerm,
      list?_argumentsTerm]

theorem isPlain_argumentsTerm (arguments : List Argument) :
    (argumentsTerm arguments).IsPlain 3 :=
  Term.isPlain_array (List.forall_mem_map.2 fun a _ => a.isPlain_toTerm)

theorem isPlain_toTerm (c : Command) : c.toTerm.IsPlain 4 := by
  have hargument (a : Argument) : a.toTerm.IsPlain 3 := a.isPlain_toTerm.mono (by decide)
  rw [toTerm_eq]
  refine Term.isPlain_ofMembers (List.forall_mem_cons.2 ⟨Term.isPlain_ofString _, ?_⟩)
  cases c <;> simp [members, Term.isPlain_ofString, hargument, isPlain_argumentsTerm]

/-- A command is read back from its term. -/
theorem ofTerm?_toTerm (c : Command) : ofTerm? c.toTerm = some c := by
  have hheld : c.toTerm.isHeld 2 = true := c.isPlain_toTerm.isHeld (by decide)
  simp [ofTerm?, parts_toTerm, hheld, ofParts?_members]

end Command

/-! ### Transactions -/

namespace Transaction

theorem isPlain_toTerm (tx : Transaction) : tx.toTerm.IsPlain 6 := by
  have hcommands : (Term.array (tx.commands.map Command.toTerm)).IsPlain 5 :=
    Term.isPlain_array (List.forall_mem_map.2 fun c _ => c.isPlain_toTerm)
  exact Term.isPlain_ofMembers (by simp [Term.isPlain_ofString, hcommands])

/-- A transaction is read back from its term. -/
theorem ofTerm?_toTerm (tx : Transaction) : ofTerm? tx.toTerm = some tx := by
  have hslots : tx.toTerm.slots? ["sender", "commands"] = some _ :=
    Term.slots?_ofMembers rfl (by decide)
  have hcommands := Term.list?_map tx.commands fun c _ => c.ofTerm?_toTerm
  rw [ofTerm?, hslots]
  simp [hcommands]

/-- A transaction is read back from its text. -/
theorem decode?_encode (tx : Transaction) : decode? Transaction (encode tx) = some tx :=
  decode?_encode_of_isPlain 6 tx.isPlain_toTerm tx.ofTerm?_toTerm

end Transaction

/-- An argument is read back from its text. -/
theorem Argument.decode?_encode (a : Argument) : decode? Argument (encode a) = some a :=
  decode?_encode_of_isPlain 2 a.isPlain_toTerm a.ofTerm?_toTerm

/-! ### What a text contains -/

/-- The tokens of an argument stand together in its command. -/
theorem Command.isInfix_argument {c : Command} {a : Argument} (h : a ∈ c.arguments) :
    a.toTerm.tokens <:+: c.toTerm.tokens := by
  have hmember {m : String × Term} (hm : m ∈ c.members) : m.2.tokens <:+: c.toTerm.tokens := by
    rw [toTerm_eq]
    exact Term.isInfix_ofMembers (List.mem_cons_of_mem _ hm)
  have hlist {as : List Argument} (h : a ∈ as) :
      a.toTerm.tokens <:+: (argumentsTerm as).tokens :=
    Term.isInfix_array (List.mem_map_of_mem h)
  cases c with
  | call target arguments => exact (hlist h).trans (hmember (.tail _ (.head _)))
  | split coin amounts =>
    obtain rfl | h := List.mem_cons.1 h
    · exact hmember (.head _)
    · exact (hlist h).trans (hmember (.tail _ (.head _)))
  | merge destination sources =>
    obtain rfl | h := List.mem_cons.1 h
    · exact hmember (.head _)
    · exact (hlist h).trans (hmember (.tail _ (.head _)))

/-- The text of an argument stands in the text of its transaction. -/
theorem Transaction.isInfix_argument {tx : Transaction} {c : Command} {a : Argument}
    (hc : c ∈ tx.commands) (ha : a ∈ c.arguments) :
    (encode a).toList <:+: (encode tx).toList := by
  have hcommands : (Term.array (tx.commands.map Command.toTerm)).tokens <:+: tx.toTerm.tokens :=
    Term.isInfix_ofMembers (m := ("commands", _)) (.tail _ (.head _))
  have htokens := (Command.isInfix_argument ha).trans
    ((Term.isInfix_array (List.mem_map_of_mem hc)).trans hcommands)
  change (String.ofList (a.toTerm.tokens.flatMap Token.render)).toList <:+:
    (String.ofList (tx.toTerm.tokens.flatMap Token.render)).toList
  rw [String.toList_ofList, String.toList_ofList]
  exact htokens.flatMap Token.render

/-- The text of a word of sixty-four bits has its decimal digits in it, as a string. -/
theorem Argument.encode_u64 (n : UInt64) :
    encode (Argument.u64 n) =
      "\x7b\"kind\":\"pure\",\"value\":\x7b\"type\":\"u64\",\"value\":\"" ++ toString n.toNat ++
        "\"\x7d\x7d" := by
  have hdigits : Token.render (.text (some (toString n.toNat))) =
      '\"' :: (toString n.toNat).toList ++ ['\"'] := by
    refine Token.renderText_of_isDigit fun c hc => ?_
    rw [Nat.toString_eq_ofList_toDigits, String.toList_ofList] at hc
    exact Literal.isDigit_of_mem_toDigits hc
  have htokens : (toTerm (u64 n)).tokens =
      [.openObject, .text "kind", .colon, .text "pure", .comma, .text "value", .colon,
        .openObject, .text "type", .colon, .text "u64", .comma, .text "value", .colon,
        .text (some (toString n.toNat)), .closeObject, .closeObject] := rfl
  rw [← String.toList_inj, String.toList_append, String.toList_append]
  change (String.ofList ((toTerm (u64 n)).tokens.flatMap Token.render)).toList = _
  rw [String.toList_ofList, htokens]
  simp only [List.flatMap_cons, List.flatMap_nil, hdigits]
  simp [Token.render, Token.renderText, Token.renderChar]

/-- The wire format loses nothing. A transaction is read back from its text, an argument is also on
its own, and every argument of a transaction is in its text as it is on its own, a word of
sixty-four bits as the string of its digits. So different transactions have different texts. -/
theorem Transaction.wireFormat_isLossless :
    (∀ tx : Transaction, decode? Transaction (encode tx) = some tx) ∧
      (∀ a : Argument, decode? Argument (encode a) = some a) ∧
      (∀ (tx : Transaction), ∀ c ∈ tx.commands, ∀ a ∈ c.arguments,
        (encode a).toList <:+: (encode tx).toList) ∧
      (∀ n : UInt64, encode (Argument.u64 n) =
        "\x7b\"kind\":\"pure\",\"value\":\x7b\"type\":\"u64\",\"value\":\"" ++ toString n.toNat ++
          "\"\x7d\x7d") ∧
      Function.Injective (encode : Transaction → String) :=
  ⟨decode?_encode, Argument.decode?_encode, fun _ _ hc _ ha => isInfix_argument hc ha,
    Argument.encode_u64, encode_injective decode?_encode⟩

/-- A transaction with texts that need escapes and the greatest word. -/
def Transaction.escapedSplit : Transaction :=
  ⟨"\"\n", [.split (.object "\x00\\") [.u64 18446744073709551615]]⟩

theorem Transaction.escapedSplit_amount_isInfix :
    (encode (Argument.u64 18446744073709551615)).toList <:+: (encode escapedSplit).toList :=
  wireFormat_isLossless.2.2.1 escapedSplit _ (.head _) _ (.tail _ (.head _))

end PredictionMarket
