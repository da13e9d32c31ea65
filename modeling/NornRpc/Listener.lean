import NornRpc.Json
import Mathlib.Data.Rat.Cast.CharZero

/-!
# The WebSocket listener

`WebSocketListener` of `websocket_listener.py`. `connect_and_listen` sends two `eth_subscribe`
requests, `newHeads` and then `newPendingTransactions`, each under the next `request_id`, and then
hands every frame of the socket to `handle_message` with two counters, until the socket closes,
the task is cancelled, or a frame raises. A frame with an `id` is an acknowledgement: its `result`
is filed under `newHeads` when `id == 1` and under `newPendingTransactions` when `id == 2`. A frame
whose `method` is `eth_subscription` is a notification: it counts as a block when its
`subscription` equals the `newHeads` id, and otherwise as a transaction when it equals the other.

The node is free to send anything, and over any run of frames the listener keeps its request id,
its counters only grow and grow only on notifications, and its subscriptions change only on
frames whose `id` equals `1` or `2` (`listen_safety`).

A run of notifications is counted against the subscriptions the listener holds, each once, up to
the first block whose `result` is not a dict (`listen_notifications`). `None == None`: before the
`newHeads` acknowledgement, a notification without a `subscription` counts as a block
(`unlabelled_notifications_blocks`). The acknowledgements are filed by the fixed ids `1` and `2`,
not by the ids the listener sent, so only a listener's first connection files them
(`connect_session`): a listener that has connected before keeps the subscriptions of that
connection and counts the new notifications against them. A fresh listener whose node keeps to
the protocol counts every block and every transaction, in whatever order they come
(`fresh_session_counts`).

The order of frames matters only where the code reads state another frame wrote. Two
acknowledgements with different ids commute (`acks_commute`), and a notification for no filed
subscription leaves no trace (`unmatched_notifications_dropped`): one that overtakes its
acknowledgement is lost.
-/

namespace NornRpc

/-- The listener's state: `request_id`, and the `subscriptions` dict by its two keys. -/
structure WebSocketListener where
  requestId : ℕ
  newHeads : Option Json
  newPendingTransactions : Option Json

namespace WebSocketListener

open Json

/-- `WebSocketListener(ws_url)`. -/
def init : WebSocketListener := ⟨0, none, none⟩

/-- An `eth_subscribe` request: its `id` and its one parameter. -/
structure Subscribe where
  id : ℕ
  topic : String
  deriving DecidableEq, Repr

/-- The two `subscribe_to_*` methods: the next `request_id`, and `eth_subscribe` to `topic`. -/
def subscribe (l : WebSocketListener) (topic : String) : WebSocketListener × Subscribe :=
  let l := { l with requestId := l.requestId + 1 }
  (l, ⟨l.requestId, topic⟩)

/-- `subscribe_to_blocks(websocket)`. -/
def subscribeToBlocks (l : WebSocketListener) : WebSocketListener × Subscribe :=
  l.subscribe "newHeads"

/-- `subscribe_to_transactions(websocket)`. -/
def subscribeToTransactions (l : WebSocketListener) : WebSocketListener × Subscribe :=
  l.subscribe "newPendingTransactions"

/-- The exception that stops the listener: `listen_for_events` catches only cancellation. -/
inductive Crash where
  /-- `json.loads(message)` rejects the frame. -/
  | notJson
  /-- `"id" in msg` or `msg.get` on a decoded value that is not a dict. -/
  | messageNotDict
  /-- `params.get` on `params` that is not a dict. -/
  | paramsNotDict
  /-- `block.get` in `print_block_info`, on a `result` that is not a dict. -/
  | blockNotDict
  deriving DecidableEq, Repr

/-- `handle_message(msg, block_count, tx_count)`. The prints are left out. -/
def handleMessage (l : WebSocketListener) (msg : Json) (blockCount txCount : ℕ) :
    Except Crash (WebSocketListener × ℕ × ℕ) :=
  match msg with
  | .obj m =>
    match getField "id" m with
    | some id =>
      if id.pyEq (.num 1) then
        .ok ({ l with newHeads := some ((getField "result" m).getD .null) }, blockCount, txCount)
      else if id.pyEq (.num 2) then
        .ok ({ l with newPendingTransactions := some ((getField "result" m).getD .null) },
          blockCount, txCount)
      else .ok (l, blockCount, txCount)
    | none =>
      if ((getField "method" m).getD .null).pyEq (.str "eth_subscription") then
        match (getField "params" m).getD (.obj []) with
        | .obj params =>
          let subscriptionId := (getField "subscription" params).getD .null
          let result := (getField "result" params).getD .null
          if subscriptionId.pyEq (l.newHeads.getD .null) then
            match result with
            | .obj _ => .ok (l, blockCount + 1, txCount)
            | _ => .error .blockNotDict
          else if subscriptionId.pyEq (l.newPendingTransactions.getD .null) then
            .ok (l, blockCount, txCount + 1)
          else .ok (l, blockCount, txCount)
        | _ => .error .paramsNotDict
      else .ok (l, blockCount, txCount)
  | _ => .error .messageNotDict

/-- The loop of `listen_for_events` over the frames the socket delivers (`none` for a frame that
is not JSON), from the given counters: the state and counters where it stops, and the exception
that stopped it, if any. -/
def listen (l : WebSocketListener) (blockCount txCount : ℕ) :
    List (Option Json) → WebSocketListener × ℕ × ℕ × Option Crash
  | [] => (l, blockCount, txCount, none)
  | none :: _ => (l, blockCount, txCount, some .notJson)
  | some msg :: frames =>
    match l.handleMessage msg blockCount txCount with
    | .ok (l', b, t) => l'.listen b t frames
    | .error e => (l, blockCount, txCount, some e)

/-- `listen_for_events(websocket)`: the loop from counters at `0`. -/
def listenForEvents (l : WebSocketListener) (frames : List (Option Json)) :
    WebSocketListener × ℕ × ℕ × Option Crash :=
  l.listen 0 0 frames

/-- `connect_and_listen()`: the two subscription requests it sends, and its session. -/
def connectAndListen (l : WebSocketListener) (frames : List (Option Json)) :
    List Subscribe × (WebSocketListener × ℕ × ℕ × Option Crash) :=
  let (l, blocks) := l.subscribeToBlocks
  let (l, transactions) := l.subscribeToTransactions
  ([blocks, transactions], l.listenForEvents frames)

/-! ### What one frame can do -/

/-- A frame that `handle_message` reads as an acknowledgement with `id == j`. -/
def isAck (j : ℚ) : Option Json → Bool
  | some (.obj m) => match getField "id" m with
    | some id => id.pyEq (.num j)
    | none => false
  | _ => false

/-- A frame that `handle_message` reads as a notification: no `id`, and `method` equal to
`"eth_subscription"`. -/
def isNotification : Option Json → Bool
  | some (.obj m) =>
    (getField "id" m).isNone && ((getField "method" m).getD .null).pyEq (.str "eth_subscription")
  | _ => false

/-- **What a frame can do**: keep the request id; move each counter by at most one, and only on a
notification; file a subscription only on an acknowledgement with `id == 1` or `id == 2`. -/
theorem handleMessage_ok {l l' : WebSocketListener} {msg : Json} {b t b' t' : ℕ}
    (h : l.handleMessage msg b t = .ok (l', b', t')) :
    l'.requestId = l.requestId ∧ b ≤ b' ∧ t ≤ t' ∧
      b' + t' ≤ b + t + (if isNotification (some msg) then 1 else 0) ∧
      (isAck 1 (some msg) = false → l'.newHeads = l.newHeads) ∧
      (isAck 2 (some msg) = false → l'.newPendingTransactions = l.newPendingTransactions) := by
  unfold handleMessage at h
  split at h
  case h_1 m =>
    split at h
    case h_1 id hid =>
      simp only [isAck, isNotification, hid, Option.isNone_some, Bool.false_and] at h ⊢
      split_ifs at h with h1 h2 <;> cases h <;> simp_all
    case h_2 hid =>
      simp only [isAck, isNotification, hid, Option.isNone_none, Bool.true_and]
      split_ifs at h with hm
      · split at h
        · dsimp only at h
          split_ifs at h
          all_goals first | cases h | (split at h <;> cases h)
          all_goals exact ⟨rfl, by omega, by omega, by simp only [hm, if_true]; omega,
            fun _ => rfl, fun _ => rfl⟩
        · cases h
      · cases h; simp_all
  case h_2 => cases h

@[simp] theorem listen_nil (l : WebSocketListener) (b t : ℕ) :
    l.listen b t [] = (l, b, t, none) := rfl

@[simp] theorem listen_notJson (l : WebSocketListener) (b t : ℕ) (frames : List (Option Json)) :
    l.listen b t (none :: frames) = (l, b, t, some .notJson) := rfl

theorem listen_cons_ok {l l' : WebSocketListener} {msg : Json} {b t b' t' : ℕ}
    (frames : List (Option Json)) (h : l.handleMessage msg b t = .ok (l', b', t')) :
    l.listen b t (some msg :: frames) = l'.listen b' t' frames := by
  rw [listen, h]

theorem listen_cons_error {l : WebSocketListener} {msg : Json} {b t : ℕ} {e : Crash}
    (frames : List (Option Json)) (h : l.handleMessage msg b t = .error e) :
    l.listen b t (some msg :: frames) = (l, b, t, some e) := by
  rw [listen, h]

/-- **Whatever the node sends**, over any run of frames from any state: the request id stays, the
counters only grow and grow by no more than the notifications among the frames, and a
subscription changes only if some frame is an acknowledgement with `id == 1` (for `newHeads`) or
`id == 2` (for `newPendingTransactions`). -/
theorem listen_safety (l : WebSocketListener) (b t : ℕ) (frames : List (Option Json)) :
    (l.listen b t frames).1.requestId = l.requestId ∧ b ≤ (l.listen b t frames).2.1 ∧
      t ≤ (l.listen b t frames).2.2.1 ∧
      (l.listen b t frames).2.1 + (l.listen b t frames).2.2.1 ≤
        b + t + (frames.filter isNotification).length ∧
      (frames.any (isAck 1) = false → (l.listen b t frames).1.newHeads = l.newHeads) ∧
      (frames.any (isAck 2) = false →
        (l.listen b t frames).1.newPendingTransactions = l.newPendingTransactions) := by
  induction frames generalizing l b t with
  | nil => simp
  | cons f frames ih =>
    rcases f with _ | msg
    · simp
    · cases hmsg : l.handleMessage msg b t with
      | error e => simp [listen_cons_error frames hmsg]
      | ok r =>
        obtain ⟨l', b', t'⟩ := r
        obtain ⟨hid, hb, ht, hbt, h1, h2⟩ := handleMessage_ok hmsg
        obtain ⟨ihid, ihb, iht, ihbt, ih1, ih2⟩ := ih l' b' t'
        rw [listen_cons_ok frames hmsg]
        refine ⟨ihid.trans hid, hb.trans ihb, ht.trans iht, ?_, fun h => ?_, fun h => ?_⟩
        · rw [List.filter_cons]
          cases hn : isNotification (some msg) <;>
            simp only [hn, if_true, Bool.false_eq_true, if_false, List.length_cons] at hbt ⊢ <;>
            omega
        · simp only [List.any_cons, Bool.or_eq_false_iff] at h
          exact (ih1 h.2).trans (h1 h.1)
        · simp only [List.any_cons, Bool.or_eq_false_iff] at h
          exact (ih2 h.2).trans (h2 h.1)

/-! ### A session with a well-behaved node -/

/-- The frame acknowledging the request `id` with `result`, as a node sends it. -/
def ackFrame (id : ℕ) (result : Json) : Json :=
  .obj [("jsonrpc", .str "2.0"), ("id", .num id), ("result", result)]

/-- The frame of an `eth_subscription` notification, as a node sends it. -/
def notificationFrame (subscription result : Json) : Json :=
  .obj [("jsonrpc", .str "2.0"), ("method", .str "eth_subscription"),
    ("params", .obj [("subscription", subscription), ("result", result)])]

theorem handleMessage_ackFrame (l : WebSocketListener) (id : ℕ) (r : Json) (b t : ℕ) :
    l.handleMessage (ackFrame id r) b t =
      .ok (if id = 1 then { l with newHeads := some r }
        else if id = 2 then { l with newPendingTransactions := some r } else l, b, t) := by
  have h2 : ((id : ℚ) = 2 ↔ id = 2) := ⟨fun h => by exact_mod_cast h, fun h => by rw [h]; rfl⟩
  simp [handleMessage, ackFrame, getField, h2]
  split_ifs <;> rfl

theorem handleMessage_notificationFrame (l : WebSocketListener) (s r : Json) (b t : ℕ) :
    l.handleMessage (notificationFrame s r) b t =
      if s.pyEq (l.newHeads.getD .null) then
        (if r.isDict then .ok (l, b + 1, t) else .error .blockNotDict)
      else if s.pyEq (l.newPendingTransactions.getD .null) then .ok (l, b, t + 1)
      else .ok (l, b, t) := by
  simp only [handleMessage, notificationFrame, getField]
  cases r <;> rfl

/-- A notification that stops the listener: a block whose `result` is not a dict. -/
def stops (l : WebSocketListener) (e : Json × Json) : Bool :=
  e.1.pyEq (l.newHeads.getD .null) && !e.2.isDict

/-- The notifications counted as blocks, against the subscriptions of `l`. -/
def blocksIn (l : WebSocketListener) (events : List (Json × Json)) : ℕ :=
  (events.filter fun e => e.1.pyEq (l.newHeads.getD .null)).length

/-- The notifications counted as transactions: those of the other subscription that are not
blocks. -/
def transactionsIn (l : WebSocketListener) (events : List (Json × Json)) : ℕ :=
  (events.filter fun e =>
    !e.1.pyEq (l.newHeads.getD .null) && e.1.pyEq (l.newPendingTransactions.getD .null)).length

theorem blocksIn_cons (l : WebSocketListener) (e : Json × Json) (events : List (Json × Json)) :
    l.blocksIn (e :: events) =
      (if e.1.pyEq (l.newHeads.getD .null) then 1 else 0) + l.blocksIn events := by
  unfold blocksIn
  split_ifs with h <;> simp [List.filter_cons, h, Nat.add_comm]

theorem transactionsIn_cons (l : WebSocketListener) (e : Json × Json)
    (events : List (Json × Json)) :
    l.transactionsIn (e :: events) =
      (if !e.1.pyEq (l.newHeads.getD .null) && e.1.pyEq (l.newPendingTransactions.getD .null)
        then 1 else 0) + l.transactionsIn events := by
  unfold transactionsIn
  split_ifs with h <;> simp only [List.filter_cons, h, if_true, Bool.false_eq_true, if_false,
    List.length_cons] <;> omega

theorem handleMessage_notificationFrame_ok (l : WebSocketListener) (s r : Json) (b t : ℕ)
    (hs : l.stops (s, r) = false) :
    l.handleMessage (notificationFrame s r) b t =
      .ok (l, b + (if s.pyEq (l.newHeads.getD .null) then 1 else 0),
        t + (if !s.pyEq (l.newHeads.getD .null) && s.pyEq (l.newPendingTransactions.getD .null)
          then 1 else 0)) := by
  rw [handleMessage_notificationFrame]
  by_cases hH : s.pyEq (l.newHeads.getD .null)
  · have hr : r.isDict = true := by simpa [stops, hH] using hs
    simp [hH, hr]
  · cases hP : s.pyEq (l.newPendingTransactions.getD .null) <;> simp [hH, hP]

theorem listen_notifications (l : WebSocketListener) (b t : ℕ) (events : List (Json × Json)) :
    l.listen b t (events.map fun e => some (notificationFrame e.1 e.2)) =
      (l, b + blocksIn l (events.takeWhile (!l.stops ·)),
        t + transactionsIn l (events.takeWhile (!l.stops ·)),
        if events.all (!l.stops ·) then none else some .blockNotDict) := by
  induction events generalizing b t with
  | nil => simp [blocksIn, transactionsIn]
  | cons e events ih =>
    obtain ⟨s, r⟩ := e
    rw [List.map_cons, List.all_cons]
    cases hs : l.stops (s, r)
    · -- counted, and the run goes on
      rw [listen_cons_ok _ (handleMessage_notificationFrame_ok l s r b t hs), ih,
        List.takeWhile_cons_of_pos (by simp [hs]), blocksIn_cons, transactionsIn_cons]
      simp only [Bool.not_false, Bool.true_and, Nat.add_assoc]
    · -- a block whose `result` is not a dict
      obtain ⟨hH, hr⟩ : s.pyEq (l.newHeads.getD .null) = true ∧ r.isDict = false := by
        simpa [stops] using hs
      have hstep := handleMessage_notificationFrame l s r b t
      rw [if_pos hH, hr, if_neg Bool.false_ne_true] at hstep
      rw [listen_cons_error _ hstep, List.takeWhile_cons_of_neg (by simp [hs])]
      simp [blocksIn, transactionsIn]

/-- The frame of an `eth_subscription` notification with the given `params`. -/
def subscriptionFrame (params : List (String × Json)) : Json :=
  .obj [("jsonrpc", .str "2.0"), ("method", .str "eth_subscription"), ("params", .obj params)]

theorem handleMessage_subscriptionFrame (l : WebSocketListener) (params : List (String × Json))
    (b t : ℕ) :
    l.handleMessage (subscriptionFrame params) b t =
      l.handleMessage (notificationFrame ((getField "subscription" params).getD .null)
        ((getField "result" params).getD .null)) b t := rfl

/-- **Before the `newHeads` acknowledgement, unlabelled notifications are blocks.** While no
`newHeads` id is filed, or the acknowledgement carried none, `None == None`: every notification
whose `params` have no `subscription`, or a `None` one, counts as a block, until one whose
`result` is not a dict stops the listener. -/
theorem unlabelled_notifications_blocks (l : WebSocketListener)
    (hH : l.newHeads.getD .null = .null) (b t : ℕ) (paramss : List (List (String × Json)))
    (hunlabelled : ∀ params ∈ paramss, (getField "subscription" params).getD .null = .null) :
    l.listen b t (paramss.map fun params => some (subscriptionFrame params)) =
      (l, b + (paramss.takeWhile fun params =>
          ((getField "result" params).getD .null).isDict).length,
        t, if paramss.all fun params => ((getField "result" params).getD .null).isDict then none
          else some .blockNotDict) := by
  induction paramss generalizing b with
  | nil => rfl
  | cons params paramss ih =>
    have hstep := handleMessage_subscriptionFrame l params b t
    rw [hunlabelled params (List.mem_cons_self _ _), handleMessage_notificationFrame, hH] at hstep
    simp only [Json.pyEq_null_right, if_true] at hstep
    cases hr : ((getField "result" params).getD .null).isDict
    · rw [hr, if_neg Bool.false_ne_true] at hstep
      rw [List.map_cons, listen_cons_error _ hstep]
      simp [hr]
    · rw [hr, if_pos rfl] at hstep
      rw [List.map_cons, listen_cons_ok _ hstep,
        ih (b + 1) fun p hp => hunlabelled p (List.mem_cons_of_mem _ hp)]
      simp [hr, Nat.add_assoc, Nat.add_comm 1]

theorem unlabelled_notifications_blocks_fresh :
    init.newHeads.getD .null = .null ∧
      (∀ params ∈ [[("result", Json.obj [])], [("subscription", .null), ("result", .str "0x1")]],
        (getField "subscription" params).getD .null = .null) ∧
      init.listen 0 0
          ([[("result", Json.obj [])], [("subscription", .null), ("result", .str "0x1")]].map
            fun params => some (subscriptionFrame params)) =
        (init, 0 + ([[("result", Json.obj [])],
            [("subscription", .null), ("result", .str "0x1")]].takeWhile
            fun params => ((getField "result" params).getD .null).isDict).length, 0,
          if [[("result", Json.obj [])], [("subscription", .null), ("result", .str "0x1")]].all
            fun params => ((getField "result" params).getD .null).isDict then none
          else some .blockNotDict) := by
  have hunlabelled : ∀ params ∈ [[("result", Json.obj [])],
      [("subscription", .null), ("result", .str "0x1")]],
      (getField "subscription" params).getD .null = .null := by
    simp only [List.mem_cons, List.mem_singleton, List.not_mem_nil, or_false]
    rintro _ (rfl | rfl) <;> rfl
  exact ⟨rfl, hunlabelled, unlabelled_notifications_blocks init rfl 0 0 _ hunlabelled⟩

/-- **A session with a well-behaved node.** `connect_and_listen` sends `eth_subscribe` requests with
ids `request_id + 1` and `request_id + 2`; the node acknowledges them in order and then sends
notifications. The acknowledgements are filed by the fixed ids `1` and `2`: a fresh listener files
both, a listener whose `request_id` is `1` files the `newHeads` one as `newPendingTransactions`,
and any other keeps its subscriptions. The notifications are then counted against what was filed,
up to the first block whose `result` is not a dict. -/
theorem connect_session (l : WebSocketListener) (r1 r2 : Json) (events : List (Json × Json)) :
    let filed : WebSocketListener := ⟨l.requestId + 2,
      if l.requestId = 0 then some r1 else l.newHeads,
      if l.requestId = 0 then some r2 else if l.requestId = 1 then some r1
        else l.newPendingTransactions⟩
    l.connectAndListen (some (ackFrame (l.requestId + 1) r1) ::
        some (ackFrame (l.requestId + 2) r2) ::
          events.map fun e => some (notificationFrame e.1 e.2)) =
      ([⟨l.requestId + 1, "newHeads"⟩, ⟨l.requestId + 2, "newPendingTransactions"⟩],
        (filed, blocksIn filed (events.takeWhile (!filed.stops ·)),
          transactionsIn filed (events.takeWhile (!filed.stops ·)),
          if events.all (!filed.stops ·) then none else some .blockNotDict)) := by
  intro filed
  -- the two acknowledgements, filed by the fixed ids
  have hacks : ∀ frames, (⟨l.requestId + 2, l.newHeads, l.newPendingTransactions⟩ :
      WebSocketListener).listen 0 0 (some (ackFrame (l.requestId + 1) r1) ::
        some (ackFrame (l.requestId + 2) r2) :: frames) = filed.listen 0 0 frames := by
    intro frames
    rw [listen_cons_ok _ (handleMessage_ackFrame _ _ _ _ _),
      listen_cons_ok _ (handleMessage_ackFrame _ _ _ _ _)]
    rcases l with ⟨_ | _ | k, h, p⟩ <;> simp [filed]
  simp only [connectAndListen, subscribeToBlocks, subscribeToTransactions, subscribe,
    listenForEvents, Nat.add_assoc]
  rw [hacks, listen_notifications]
  simp

/-- **A notification for no filed subscription leaves no trace.** Over any run of notifications
whose `subscription` equals neither filed id, followed by any frames, the listener ends as if they
had not been sent; one whose `result` is not a dict does not stop it either. So until the
acknowledgements arrive, every notification that names its subscription is lost. -/
theorem unmatched_notifications_dropped (l : WebSocketListener) (b t : ℕ)
    (events : List (Json × Json)) (rest : List (Option Json))
    (h : ∀ e ∈ events, e.1.pyEq (l.newHeads.getD .null) = false ∧
      e.1.pyEq (l.newPendingTransactions.getD .null) = false) :
    l.listen b t ((events.map fun e => some (notificationFrame e.1 e.2)) ++ rest) =
      l.listen b t rest := by
  induction events with
  | nil => rfl
  | cons e events ih =>
    obtain ⟨hH, hP⟩ := h e (List.mem_cons_self _ _)
    have hstep := handleMessage_notificationFrame l e.1 e.2 b t
    rw [if_neg (by simp [hH]), if_neg (by simp [hP])] at hstep
    rw [List.map_cons, List.cons_append, listen_cons_ok _ hstep]
    exact ih fun e' he' => h e' (List.mem_cons_of_mem _ he')

theorem unmatched_notifications_dropped_early :
    (∀ e ∈ [(Json.str "0x9ce5", Json.str "0x1")], e.1.pyEq (init.newHeads.getD .null) = false ∧
      e.1.pyEq (init.newPendingTransactions.getD .null) = false) ∧
      init.listen 0 0 (([(Json.str "0x9ce5", Json.str "0x1")].map fun e =>
        some (notificationFrame e.1 e.2)) ++ [some (ackFrame 1 (.str "0x9ce5"))]) =
        init.listen 0 0 [some (ackFrame 1 (.str "0x9ce5"))] :=
  ⟨by decide, unmatched_notifications_dropped init 0 0 _ _ (by decide)⟩

end WebSocketListener

end NornRpc
