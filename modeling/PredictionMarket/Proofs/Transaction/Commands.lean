import PredictionMarket.Trade.Funds

/-!
# The commands of transactions

Every way to spend adds fixed commands after those that are there already. The handles in them are
counted from the number of commands before.

## Main definitions

* `Funds.merges`: the commands that merge the coins.
* `OrderRequest.spend`, `OrderRequest.call`: what an order adds, and the call that it ends in.
* `Liquidity.commands`: the commands that add liquidity.
-/

namespace PredictionMarket

/-- What an order adds to a transaction at some cost. Only an order in the book needs a number that
tells it from others. -/
def OrderRequest.spend (p : Packages) (owner market : String) (cost salt : UInt64) :
    OrderRequest → Argument → Assembly Argument
  | .market side quantity => Assembly.buyShares p market side quantity cost
  | .limit side amount price => Assembly.placeBid p owner market side amount price salt

/-- A cost is that of an order, which only an order in the book tells by itself. -/
def OrderRequest.Takes (cost : UInt64) : OrderRequest → Prop
  | .market .. => True
  | .limit _ amount _ => amount = cost

/-- The call that an order ends in, paid with a coin. -/
def OrderRequest.call (p : Packages) (owner market : String) (salt : UInt64) (coin : Argument) :
    OrderRequest → Command
  | .market .yes quantity =>
    .call (p.market ++ "::market::buy_yes") [.object market, coin, .u64 quantity, .object p.clock]
  | .market .no quantity =>
    .call (p.market ++ "::market::buy_no") [.object market, coin, .u64 quantity, .object p.clock]
  | .limit side amount price =>
    .call (p.market ++ "::orderbook::create_order")
      [.address owner, .object market, .u64 amount, .u64 price, .u8 1,
        .u8 (match side with | .yes => 1 | .no => 0), .u64 0, .u64 salt, coin]

/-- The commands that add liquidity after a number of others. -/
def Liquidity.commands (l : Liquidity) (p : Packages) (owner market : String)
    (yesSalt noSalt : UInt64) (primary : Argument) (position : Nat) : List Command :=
  [.split primary [.u64 l.lpAmount], .split primary [.u64 l.seedAmount],
    .split primary [.u64 l.seedAmount],
    .call (p.market ++ "::market::provide_liquidity")
      [.object market, Assembly.handle position, .u64 l.lpAmount],
    (OrderRequest.limit .yes l.seedAmount l.seedPrice).call p owner market yesSalt
      (Assembly.handle (position + 1)),
    (OrderRequest.limit .no l.seedAmount l.seedPrice).call p owner market noSalt
      (Assembly.handle (position + 2))]

/-- The commands that merge the coins, at most one. -/
def Funds.merges (f : Funds) : List Command :=
  if f.others.isEmpty then [] else [.merge f.primary f.others]

namespace Assembly

variable (p : Packages) (owner market : String)

/-- An order is a split of its cost and the call that takes it. -/
theorem toList_run_spend {request : OrderRequest} {cost : UInt64} (hcost : request.Takes cost)
    (salt : UInt64) (primary : Argument) (commands : Array Command) :
    ((request.spend p owner market cost salt primary).run commands).2.toList =
      commands.toList ++ [.split primary [.u64 cost],
        request.call p owner market salt (handle commands.size)] := by
  cases request with
  | market side quantity =>
    change ((commands.push _).push (.call (p.market ++ "::market::" ++ side.buyFunction) _)).toList
      = _
    rw [String.append_assoc, Array.toList_push, Array.toList_push, List.append_assoc]
    cases side <;> rfl
  | limit side amount price =>
    obtain rfl := hcost
    change ((commands.push _).push _).toList = _
    rw [Array.toList_push, Array.toList_push, List.append_assoc]
    cases side <;> rfl

/-- Liquidity is added by its own commands, behind those that are there. -/
theorem toList_run_addLiquidity (l : Liquidity) (yesSalt noSalt : UInt64) (primary : Argument)
    (commands : Array Command) :
    ((addLiquidity p owner market l yesSalt noSalt primary).run commands).2.toList =
      commands.toList ++ l.commands p owner market yesSalt noSalt primary commands.size := by
  change ((((((commands.push _).push _).push _).push _).push _).push _).toList = _
  simp only [Array.toList_push, Array.size_push, List.append_assoc]
  rfl

/-- A market is created by a single call. -/
theorem commands_transaction_createMarket (sender : Address) (topic description : String)
    (startTime endTime : UInt64) :
    (transaction sender (createMarket p topic description startTime endTime)).commands =
      [.call (p.market ++ "::market::create_market")
        [.string topic, .string description, .u64 startTime, .u64 endTime]] :=
  rfl

/-- An oracle is created by two calls, the second of which takes the result of the first. -/
theorem commands_transaction_createOracle (sender : Address) (codeHash blobId : String) :
    (transaction sender (createOracle p codeHash blobId)).commands =
      [.call (p.oracle ++ "::oracle::create_config") [.string codeHash, .string blobId],
        .call (p.oracle ++ "::oracle::create_truth_oracle_holder") [handle 0]] :=
  rfl

end Assembly

namespace Funds

variable (f : Funds)

/-- What is spent comes after the merge, if there is one. -/
theorem commands_transaction {α : Type} (spend : Argument → Assembly α) :
    (f.transaction spend).commands = ((spend f.primary).run f.merges.toArray).2.toList := by
  obtain ⟨sender, primary, others⟩ := f
  cases others <;> rfl

/-- The transaction of an order merges the coins, splits off the cost and calls for the order. -/
theorem commands_spend (p : Packages) (owner market : String) {request : OrderRequest}
    {cost : UInt64} (hcost : request.Takes cost) (salt : UInt64) :
    (f.transaction (request.spend p owner market cost salt)).commands =
      f.merges ++ [.split f.primary [.u64 cost],
        request.call p owner market salt (Assembly.handle f.merges.length)] := by
  rw [commands_transaction, Assembly.toList_run_spend p owner market hcost, List.size_toArray]

/-- The transaction of liquidity merges the coins and then has the commands that add it. -/
theorem commands_addLiquidity (p : Packages) (owner market : String) (l : Liquidity)
    (yesSalt noSalt : UInt64) :
    (f.transaction (Assembly.addLiquidity p owner market l yesSalt noSalt)).commands =
      f.merges ++ l.commands p owner market yesSalt noSalt f.primary f.merges.length := by
  rw [commands_transaction, Assembly.toList_run_addLiquidity, List.size_toArray]

/-- The coins are merged by one command, or by none if there is but one. -/
theorem length_merges_le : f.merges.length ≤ 1 := by
  unfold merges
  cases f.others.isEmpty <;> simp

/-- There are positions enough for the merge and what comes after it. -/
theorem length_merges_add_lt : f.merges.length + 6 < UInt16.size := by
  have hle := f.length_merges_le
  simp only [UInt16.size]
  omega

end Funds

end PredictionMarket
