import PredictionMarket.Book
import PredictionMarket.Chat.Message
import PredictionMarket.Flow
import PredictionMarket.Market.View
import PredictionMarket.Publisher
import PredictionMarket.Ranking.Panel

/-!
# What a program prints

The lines in which a program shows markets, estimates, books, rankings and messages.
-/

namespace PredictionMarket

/-- A text with spaces in front of it up to a width. -/
def Text.rightAligned (width : Nat) (s : String) : String :=
  String.ofList (List.replicate (width - s.length) ' ') ++ s

open Text

/-- The two lines of a market in a list, as of a time. -/
def Market.lines (m : Market) (now : Int) : List String :=
  let mark := if (m.controls now).trading then "" else "  [closed]"
  let (yes, no) := m.percentages
  [shortAddress m.address ++ "  " ++ m.topic ++ mark,
    "    " ++ m.pricesText ++ "  YES " ++ toString yes.toNat ++ "% / NO " ++ toString no.toNat ++
      "%  pool " ++ poolText m.balance ++ "  " ++ countdown m.endTime now]

def Estimate.lines (e : Estimate) (m : Market) : List String :=
  [e.kind.label ++ " " ++ (e.side.map Side.label).getD "" ++ " on " ++ m.topic,
    "  Price/share: " ++ e.priceText,
    "  Quantity:    " ++ e.quantityText,
    "  Total:       " ++ e.total] ++
  e.hint.toList.map ("  " ++ ·)

namespace Book

/-- A row of three columns. -/
def row (price shares total : String) : String :=
  rightAligned 8 price ++ " " ++ rightAligned 14 shares ++ " " ++ rightAligned 14 total

def levelRow (l : Level) : String :=
  row (centsText l.price) (amountText l.shares) (amountText l.total)

def lines (b : Book) : List String :=
  row "PRICE" "SHARES" "TOTAL" :: (b.asks ++ b.bids).map levelRow ++
    ["Last " ++ centsText b.summary.last ++ "  Spread " ++ centsText b.summary.spread]

end Book

namespace Rankings

/-- The line of a buyer with a rank. -/
def line (b : Buyer) (rank : Nat) : String :=
  "  " ++ rightAligned 2 (toString rank) ++ ". " ++ shortAddress b.address ++ "  " ++
    b.displayAmount.withPlaces 2 ++ " U  (" ++ toString b.transactionCount.toNat ++ " trades)"

def sideLines (r : Rankings) (side : Side) : List String :=
  (side.label ++ " buyers") :: ((r.top side).zipIdx 1).map fun (b, rank) => line b rank

def lines (r : Rankings) : List String :=
  r.sideLines .yes ++ r.sideLines .no

end Rankings

/-- The hour, the minute and the second of an instant; a leap second is number sixty. -/
def Instant.clockText (t : Instant) : String :=
  String.ofList (zeroPadded 2 t.hour ++ ':' :: zeroPadded 2 t.minute ++
    ':' :: zeroPadded 2 (t.second + t.nanos / nanosInSecond))

def ChatMessage.line (m : ChatMessage) : String :=
  "[" ++ m.timestamp.clockText ++ "] " ++ shortAddress m.address ++ ": " ++ m.message

def Blob.line (b : Blob) : String :=
  "Blob: " ++ b.id ++ " (object " ++ b.object.getD "-" ++ ")"

/-- The line of a wish that a market be resolved. -/
def ResolveRequest.line (r : ResolveRequest) : String :=
  "Resolve requested for " ++ r.market ++ " at " ++ r.requestedAt.text "+00:00" ++ " (ended: " ++
    toString r.hasEnded ++ ")"

end PredictionMarket
