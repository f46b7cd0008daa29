import MarketMaking.Venue

/-!
# Scripted venues

A venue that replays a list of ticks and keeps a log of what it is asked for. Between ticks its
orders, its rules and its inventory can be changed at will, so that every kind of answer a venue
may give can be staged.
-/

namespace MarketMaking

/-- What an accepted cancellation does to an order, or that none is accepted. -/
inductive CancelMode where
  | mark
  | remove
  | refuse
  deriving DecidableEq, Repr

/-- A change to a scripted venue. -/
inductive ScriptAction (R : Type) where
  /-- Execute an active order. -/
  | fill (id : OrderId)
  | setPosition (position : R)
  | setTickSize (tickSize : R)
  | insert (order : RestingOrder R)
  | remove (id : OrderId)
  | setStatus (id : OrderId) (status : OrderStatus)
  | setCancellable (id : OrderId) (cancellable : Bool)
  | setCancelMode (mode : CancelMode)
  /-- Replace the identifiers whose orders are rejected. -/
  | setRejected (ids : List OrderId)
  /-- Replace the identifiers whose orders fail, with their failures. -/
  | setFailing (failures : List (OrderId × Error R))

/-- The market of one step: its touch, its trades, and changes made after them. -/
structure ScriptTick (R : Type) where
  bestBid : Int
  bestAsk : Int
  trades : List (Trade R)
  actions : List (ScriptAction R)

/-- A venue that follows a script. -/
structure ScriptedVenue (R : Type) where
  bestBid : Int
  bestAsk : Int
  tickSize : R
  position : R
  orders : OrderTable R
  trades : List (Trade R)
  /-- Are inactive orders kept when asked to drop them? -/
  keepInactive : Bool
  /-- Does a trade execute the orders that it reaches? -/
  fillOnTrade : Bool
  cancelMode : CancelMode
  rejected : List OrderId
  failing : List (OrderId × Error R)
  /-- The ticks to come. -/
  ticks : List (ScriptTick R)
  /-- How often the clock was asked, and for which duration at last. -/
  clockCalls : Nat
  lastDuration : Int
  /-- The cancellation requests so far and whether they were accepted. -/
  cancelLog : Array (OrderId × Bool)
  /-- The order requests so far and whether they were accepted. -/
  requestLog : Array (OrderRequest R × Bool)
  /-- How often inactive orders were to be dropped. -/
  clears : Nat

namespace ScriptedVenue

variable {R : Type} [Scalar R]

/-- A venue without orders, trades or ticks. -/
def idle (tickSize : R) : ScriptedVenue R where
  bestBid := 0
  bestAsk := 0
  tickSize
  position := Scalar.zero
  orders := []
  trades := []
  keepInactive := false
  fillOnTrade := false
  cancelMode := .mark
  rejected := []
  failing := []
  ticks := []
  clockCalls := 0
  lastDuration := 0
  cancelLog := #[]
  requestLog := #[]
  clears := 0

/-- Execute an active order; nothing else is executed. -/
def fill (v : ScriptedVenue R) (id : OrderId) : ScriptedVenue R :=
  match v.orders.get? id with
  | some order =>
      if order.isActive then
        { v with
          orders := v.orders.adjust id RestingOrder.filled
          position := order.inventoryAfter v.position }
      else v
  | none => v

/-- Make one change. -/
def apply (v : ScriptedVenue R) : ScriptAction R → ScriptedVenue R
  | .fill id => v.fill id
  | .setPosition position => { v with position }
  | .setTickSize tickSize => { v with tickSize }
  | .insert order => { v with orders := v.orders.put order.id order }
  | .remove id => { v with orders := v.orders.remove id }
  | .setStatus id status => { v with orders := v.orders.adjust id ({ · with status }) }
  | .setCancellable id cancellable =>
      { v with orders := v.orders.adjust id ({ · with cancellable }) }
  | .setCancelMode cancelMode => { v with cancelMode }
  | .setRejected rejected => { v with rejected }
  | .setFailing failing => { v with failing }

/-- Make changes in order. -/
def applyAll (v : ScriptedVenue R) (actions : List (ScriptAction R)) : ScriptedVenue R :=
  actions.foldl apply v

/-- Print a trade, executing the orders that it reaches by ascending identifier where trades do
so. -/
def trade (v : ScriptedVenue R) (trade : Trade R) : ScriptedVenue R :=
  if v.fillOnTrade then
    let reached := v.orders.ascending.filter (·.2.reachedBy trade)
    (reached.map Prod.fst).foldl fill v
  else v

/-- Move to the market of a tick. -/
def advance (v : ScriptedVenue R) (tick : ScriptTick R) : ScriptedVenue R :=
  let v := { v with bestBid := tick.bestBid, bestAsk := tick.bestAsk }
  let v := tick.trades.foldl trade v
  { v with trades := v.trades ++ tick.trades }.applyAll tick.actions

/-- Cancel an active cancellable order where cancellations are accepted. -/
def cancel (v : ScriptedVenue R) (id : OrderId) : Bool × ScriptedVenue R :=
  let isOpen := (v.orders.get? id).any fun order => order.isActive && order.cancellable
  let accepted := v.cancelMode ≠ .refuse && isOpen
  let orders :=
    if !accepted then v.orders
    else if v.cancelMode = .remove then v.orders.remove id
    else v.orders.adjust id RestingOrder.cancelled
  (accepted, { v with orders, cancelLog := v.cancelLog.push (id, accepted) })

/-- Refuse a request for a rejected or failing identifier; accept any other one. -/
def submit (v : ScriptedVenue R) (request : OrderRequest R) :
    Except (Error R) Unit × ScriptedVenue R :=
  let refusal : Option (Error R) :=
    if v.rejected.contains request.id then some (.orderRejected request.id "would cross")
    else (v.failing.find? (·.1 = request.id)).map Prod.snd
  match refusal with
  | some e => (.error e, { v with requestLog := v.requestLog.push (request, false) })
  | none =>
      (.ok (), { v with
        orders := v.orders.put request.id request.accepted
        requestLog := v.requestLog.push (request, true) })

/-- Take the next tick, if there is one. -/
def elapse (v : ScriptedVenue R) (duration : Int) : Bool × ScriptedVenue R :=
  let v := { v with clockCalls := v.clockCalls + 1, lastDuration := duration }
  match v.ticks with
  | [] => (false, v)
  | tick :: ticks => (true, { v with ticks }.advance tick)

/-- Forget what the venue was asked for. -/
def clearLogs (v : ScriptedVenue R) : ScriptedVenue R :=
  { v with cancelLog := #[], requestLog := #[], clears := 0 }

instance : Venue (ScriptedVenue R) R where
  elapse := elapse
  bestBid v := v.bestBid
  bestAsk v := v.bestAsk
  tickSize v := v.tickSize
  lastTrades v := v.trades
  clearTrades v := { v with trades := [] }
  position v := v.position
  orders v := v.orders
  cancel := cancel
  submit := submit
  clearInactive v :=
    { v with
      orders := if v.keepInactive then v.orders else v.orders.activeOnly
      clears := v.clears + 1 }

end ScriptedVenue

end MarketMaking
