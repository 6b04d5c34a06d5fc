import PredictionMarket.Holdings
import PredictionMarket.Market.Basic

/-!
# What was last read

`Store` keeps the markets and the holdings that the index last gave.

## Main definitions

* `Store.market?`, `Store.markets`, `Store.holdings?`: what is known.
* `Store.replaceMarkets`: a new list of markets, through the stages of `Store.replacement`.
* `Store.perform`: what is done to a store, with the reply.
-/

namespace PredictionMarket

/-- The markets and holdings that are known, by address and by owner. -/
structure Store where
  /-- The markets in the order in which they became known. -/
  entries : List Market
  owners : List Holdings
  distinctAddresses : (entries.map Market.address).Nodup
  distinctOwners : (owners.map Holdings.owner).Nodup
deriving DecidableEq, Repr

namespace Store

def empty : Store where
  entries := []
  owners := []
  distinctAddresses := List.nodup_nil
  distinctOwners := List.nodup_nil

variable (s : Store)

def market? (address : String) : Option Market :=
  s.entries.find? (·.address == address)

/-- Whether a market is listed before another one: the one that ends sooner, then the one with the
lesser address. -/
def isBefore (a b : Market) : Bool :=
  a.endTime < b.endTime || (a.endTime == b.endTime && a.address ≤ b.address)

/-- The markets, the one that ends soonest first. -/
def markets : List Market :=
  s.entries.mergeSort isBefore

def size : Nat :=
  s.entries.length

/-- Keeps the markets at some addresses. -/
def retain (addresses : List String) : Store :=
  { s with
    entries := s.entries.filter fun m => addresses.contains m.address
    distinctAddresses := (List.filter_sublist.map _).nodup s.distinctAddresses }

/-- Markets with one more, in the place of the one at its address. -/
def inserted (entries : List Market) (m : Market) : List Market :=
  if entries.any (·.address == m.address) then
    entries.map fun e => if e.address == m.address then m else e
  else entries ++ [m]

/-- A market that takes the place of another one has its address. -/
theorem nodup_inserted {entries : List Market} (h : (entries.map Market.address).Nodup)
    (m : Market) : ((inserted entries m).map Market.address).Nodup := by
  unfold inserted
  by_cases hany : entries.any (·.address == m.address) = true
  · rw [if_pos hany]
    have hsame : entries.map (Market.address ∘ fun e => if e.address == m.address then m else e) =
        entries.map Market.address := by
      refine List.map_congr_left fun e _ => ?_
      by_cases he : e.address = m.address
      · simp [he]
      · simp [he]
    rw [List.map_map, hsame]
    exact h
  · rw [if_neg hany]
    have hnew : m.address ∉ entries.map Market.address := by
      simpa [List.any_eq_true] using hany
    rw [List.map_append, List.nodup_append]
    refine ⟨h, List.pairwise_singleton _ _, ?_⟩
    rintro a ha _ hm rfl
    exact hnew (List.mem_singleton.1 hm ▸ ha)

/-- Adds a market in the place of the one at its address. -/
def insert (m : Market) : Store :=
  { s with
    entries := inserted s.entries m
    distinctAddresses := nodup_inserted s.distinctAddresses m }

/-- The stages on the way to a new list of markets: those that are gone are dropped, then the list
is added one by one. -/
def replacement (markets : List Market) : List Store :=
  markets.scanl insert (s.retain (markets.map Market.address))

/-- The store with a new list of markets. -/
def replaceMarkets (markets : List Market) : Store :=
  markets.foldl insert (s.retain (markets.map Market.address))

def holdings? (owner : String) : Option Holdings :=
  s.owners.find? (·.owner == owner)

/-- Holdings in front of those of other owners. -/
theorem nodup_owners_cons {owners : List Holdings} (hdistinct : (owners.map Holdings.owner).Nodup)
    (h : Holdings) :
    ((h :: owners.filter fun e => e.owner != h.owner).map Holdings.owner).Nodup := by
  refine List.nodup_cons.2 ⟨fun hmem => ?_, (List.filter_sublist.map _).nodup hdistinct⟩
  obtain ⟨e, he, howner⟩ := List.mem_map.1 hmem
  simp [howner] at he

/-- The store with new holdings of their owner. -/
def setHoldings (h : Holdings) : Store :=
  { s with
    owners := h :: s.owners.filter fun e => e.owner != h.owner
    distinctOwners := nodup_owners_cons s.distinctOwners h }

/-- New holdings replace those of their owner and no others. -/
theorem holdings?_setHoldings (h : Holdings) (owner : String) :
    (s.setHoldings h).holdings? owner = if owner = h.owner then some h else s.holdings? owner := by
  unfold setHoldings holdings?
  rw [List.find?_cons]
  by_cases howner : owner = h.owner
  · rw [if_pos howner, howner, beq_self_eq_true]
  · rw [if_neg howner, beq_eq_false_iff_ne.2 (Ne.symm howner), List.find?_filter]
    refine congrFun (congrArg List.find? (funext fun e => ?_)) s.owners
    by_cases he : e.owner = owner
    · simp [he, howner]
    · simp [he]

/-- The store after the index was asked for the markets, which it may have refused. -/
def refreshMarkets (reply : Except String (List Market)) : Store :=
  match reply with
  | .ok markets => s.replaceMarkets markets
  | .error _ => s

/-- The store after the index was asked for holdings, which it may have refused. -/
def refreshHoldings (reply : Except String Holdings) : Store :=
  match reply with
  | .ok h => s.setHoldings h
  | .error _ => s

/-- What is done to a store. A refresh comes with what the index said, which may refuse. -/
inductive Operation where
  | replaceMarkets (markets : List Market)
  | setHoldings (h : Holdings)
  | refreshMarkets (reply : Except String (List Market))
  | refreshHoldings (reply : Except String Holdings)

/-- What an operation replies: after a refresh how many markets the index listed, or the holdings,
or else why it refused. -/
inductive Reply where
  | nothing
  | listed (count : Except String Nat)
  | held (holdings : Except String Holdings)

/-- The reply to an operation and the store after it. -/
def perform : Operation → Reply × Store
  | .replaceMarkets markets => (.nothing, s.replaceMarkets markets)
  | .setHoldings h => (.nothing, s.setHoldings h)
  | .refreshMarkets reply => (.listed (reply.map List.length), s.refreshMarkets reply)
  | .refreshHoldings reply => (.held reply, s.refreshHoldings reply)

end Store

end PredictionMarket
