import PredictionMarket.Number.Places
import PredictionMarket.Side

/-!
# The illustrative order book

A fixed book per side that shows what an order book looks like; no order is matched against it.

## Main definitions

* `Book.illustrative`: the levels shown for a side.
* `Book.summary`: the best prices and the spread.
* `centsText`, `amountText`: prices and amounts as shown.
-/

namespace PredictionMarket

/-- The orders at one price. -/
structure Level where
  /-- The price in cents. -/
  price : UInt32
  shares : Binary64
  /-- The worth of the shares. -/
  total : Binary64
deriving DecidableEq

/-- A level from its price and from hundredths of shares and worth. -/
def Level.ofHundredths (price : UInt32) (shares total : Nat) : Level :=
  ⟨price, .nearest shares 100, .nearest total 100⟩

/-- The two halves of an order book, the best price of each first. -/
structure Book where
  asks : List Level
  bids : List Level
deriving DecidableEq

/-- The prices that a book is summed up by, in cents. -/
structure BookSummary where
  bestAsk : Option UInt32
  bestBid : Option UInt32
  last : Option UInt32
  spread : Option UInt32
deriving DecidableEq, Repr

namespace Book

/-- The levels shown for a side. -/
def illustrative : Side → Book
  | .yes => {
      asks := [
        .ofHundredths 18 4937560 11222010,
        .ofHundredths 17 12869821 10333249,
        .ofHundredths 16 19649486 8145379,
        .ofHundredths 15 24553396 5001461,
        .ofHundredths 14 9417514 1318452]
      bids := [
        .ofHundredths 13 3385725 440144,
        .ofHundredths 12 22015423 3081995,
        .ofHundredths 11 20050939 5287598,
        .ofHundredths 10 8521014 6139699,
        .ofHundredths 9 4449885 6540189] }
  | .no => {
      asks := [
        .ofHundredths 78 3000000 2340000,
        .ofHundredths 77 15000000 11550000,
        .ofHundredths 76 9000000 6840000]
      bids := [
        .ofHundredths 75 4500000 3375000,
        .ofHundredths 74 12000000 8880000,
        .ofHundredths 73 8000000 5840000] }

/-- The best prices, the last one traded, and the spread, which is zero if the best prices
cross. -/
def summary (b : Book) : BookSummary :=
  let ask := b.asks.head?.map Level.price
  let bid := b.bids.head?.map Level.price
  { bestAsk := ask
    bestBid := bid
    last := bid <|> ask
    spread :=
      match ask, bid with
      | some a, some b => some (if b ≤ a then a - b else 0)
      | _, _ => none }

end Book

/-- A price in cents as shown, with two dashes for none. -/
def centsText : Option UInt32 → String
  | some p => toString p.toNat ++ "¢"
  | none => "--"

/-- Characters with a comma in front of every third one from the right, the first one apart. -/
def grouped : List Char → List Char
  | [] => []
  | c :: cs =>
    if cs.length % 3 == 0 && !cs.isEmpty then c :: ',' :: grouped cs else c :: grouped cs

/-- The fraction of a text with its point, less the zeros at its end; nothing if none is left. -/
def trimmedFraction (fraction : List Char) : List Char :=
  let kept := (fraction.reverse.dropWhile (· == '0')).reverse
  if kept.isEmpty then [] else '.' :: kept

/-- A decimal text with its whole part in groups of three and without zeros at its end. -/
def groupedText (text : List Char) : List Char :=
  let whole := text.takeWhile (· != '.')
  let fraction := (text.dropWhile (· != '.')).drop 1
  match whole with
  | '-' :: digits => '-' :: grouped digits ++ trimmedFraction fraction
  | digits => grouped digits ++ trimmedFraction fraction

/-- An amount with at most two places and its thousands apart. -/
def amountText (x : Binary64) : String :=
  String.ofList (groupedText (x.withPlaces 2).toList)

end PredictionMarket
