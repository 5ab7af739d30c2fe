import Gocoon.GoStrings
import Gocoon.ProxySession

/-!
# Discovery of a live session

`tryConnectFirstProxy` goes through the endpoints of the first registered proxy, publishes the
session that `ConnectProxy` returned in the runner's state, looks at its status once a second,
takes it back when a look finds it no longer ready and starts over. It is modelled by the actions
it takes for what it is told, so a session that is lost between two looks stays published until
the next one. Each setter of `RunnerState` is a critical section, and no other goroutine sets the
two lists, so a reader may see them after any number of these actions. The other fields are set by
the wallet poll at any time.
-/

namespace Gocoon.RunnerDiscovery

open Gocoon.LittleEndianBytes
open Gocoon.TlPrimitives
open Gocoon.ProxySession (SessionStatus)

set_option autoImplicit false

structure ProxyConnectionEntry where
  address : GoString
  isReady : Bool
  proxySCAddress : GoString
  deriving DecidableEq

structure ProxyStatEntry where
  proxySCAddress : GoString
  proxyPublicKey : GoString
  scAddress : GoString
  state : Int
  tokensUsedProxyCommittedToBlockchain : Int
  tokensUsedProxyCommittedToDB : Int
  tokensUsedProxyMax : Int
  tokensCharged : Int
  tokensPayed : Int
  deriving DecidableEq

structure RunnerState where
  walletBalance : UInt64
  tonLastSyncedAt : Int64
  enabled : Bool
  gitCommit : GoString
  rootAddress : GoString
  ownerAddress : GoString
  checkImageHashes : Bool
  proxyConnections : List ProxyConnectionEntry
  proxies : List ProxyStatEntry
  deriving DecidableEq

/-- A session that `ConnectProxy` returned, with what the proxy told it. -/
structure Session where
  scAddress : GoString
  clientSCAddress : GoString
  deriving DecidableEq

def connectionEntry (endpoint : GoString) (sess : Session) : ProxyConnectionEntry where
  address := endpoint
  isReady := true
  proxySCAddress := sess.scAddress

def statEntry (sess : Session) : ProxyStatEntry where
  proxySCAddress := sess.scAddress
  proxyPublicKey := []
  scAddress := sess.clientSCAddress
  state := 0
  tokensUsedProxyCommittedToBlockchain := 0
  tokensUsedProxyCommittedToDB := 0
  tokensUsedProxyMax := 1000000
  tokensCharged := 0
  tokensPayed := 0

section Endpoints

def blank (byte : Byte) : Bool := byte = 0x20 ∨ byte = 0x09

def splitRound (raw : GoString) (state : Nat × List GoString) (i : Nat) : Nat × List GoString :=
  if i = raw.length ∨ (raw[i]?.any blank) = true then
    (i + 1, if state.1 < i then state.2 ++ [(raw.take i).drop state.1] else state.2)
  else state

def splitEndpoints (raw : GoString) : List GoString :=
  match ((List.range (raw.length + 1)).foldl (splitRound raw) (0, [])).2 with
  | [] => []
  | [token] => [token]
  | _ :: clients => clients

def isTerminalClientSessionError (message : GoString) : Bool :=
  (GoStrings.index (ascii "client is closing") message).isSome ||
    (GoStrings.index (ascii "client is closed") message).isSome

def wordsOf (raw : GoString) : List GoString := (raw.splitOnP blank).filter (· ≠ [])

theorem words_first {word : GoString} (solid : ∀ byte ∈ word, blank byte = false) {gap : Byte}
    (isBlank : blank gap = true) (rest : GoString) :
    wordsOf (word ++ gap :: rest) = [word].filter (· ≠ []) ++ wordsOf rest := by
  rw [wordsOf, List.splitOnP_append_cons _ _ isBlank, List.splitOnP_eq_singleton solid,
    List.filter_append]
  rfl

theorem rounds_collect (rest : GoString) : ∀ (front word : GoString) (tokens : List GoString),
    (∀ byte ∈ word, blank byte = false) →
    ((List.range' (front.length + word.length) (rest.length + 1)).foldl
      (splitRound (front ++ word ++ rest)) (front.length, tokens)).2 =
      tokens ++ wordsOf (word ++ rest) := by
  have token : ∀ (front word rest : GoString) (tokens : List GoString),
      (if front.length < front.length + word.length then
        tokens ++ [((front ++ word ++ rest).take (front.length + word.length)).drop front.length]
      else tokens) = tokens ++ [word].filter (· ≠ []) := by
    intro front word rest tokens
    have here : ((front ++ word ++ rest).take (front.length + word.length)).drop front.length =
        word := by
      rw [← List.length_append, List.take_left, List.drop_left]
    rw [here]
    cases word <;> simp
  induction rest with
  | nil =>
      intro front word tokens solid
      rw [List.append_nil word, wordsOf, List.splitOnP_eq_singleton solid, ← token front word []]
      simp [splitRound, List.range'_one]
  | cons byte rest ih =>
      intro front word tokens solid
      rw [List.length_cons, List.range'_succ, List.foldl_cons]
      have middle : front.length + word.length ≠ (front ++ word ++ byte :: rest).length := by simp
      have here : (front ++ word ++ byte :: rest)[front.length + word.length]? = some byte := by
        rw [← List.length_append, List.getElem?_append_right (Nat.le_refl _)]
        simp
      rw [splitRound, here]
      cases isBlank : blank byte with
      | true =>
          rw [if_pos (.inr (by simpa using isBlank)), token, words_first solid isBlank,
            ← List.append_assoc]
          have later := ih (front ++ word ++ [byte]) [] (tokens ++ [word].filter (· ≠ []))
            (by simp)
          simpa [Nat.add_assoc] using later
      | false =>
          rw [if_neg (by simp [isBlank])]
          have longer : ∀ other ∈ word ++ [byte], blank other = false := by
            intro other inside
            rcases List.mem_append.mp inside with old | new
            · exact solid other old
            · rwa [List.mem_singleton.mp new]
          have later := ih front (word ++ [byte]) tokens longer
          simpa [Nat.add_assoc] using later

theorem endpoint_word {raw endpoint : GoString} (listed : endpoint ∈ splitEndpoints raw) :
    wordsOf raw = [endpoint] ∨ endpoint ∈ (wordsOf raw).tail := by
  have collected := rounds_collect raw [] [] [] (by simp)
  simp only [List.length_nil, Nat.zero_add, List.nil_append, ← List.range_eq_range'] at collected
  rw [splitEndpoints, collected] at listed
  split at listed
  · cases listed
  · next token single =>
      rw [single, List.mem_singleton.mp listed]
      exact .inl rfl
  · next first clients _ words =>
      rw [words]
      exact .inr listed

end Endpoints

section Discovery

/-- What `ConnectProxy` returns: the message of an error or a session. -/
abbrev Answer := Except GoString Session

/-- One look of `waitSessionReadyOrContext` at the session, and whether its `select` then finds the
context done. -/
structure Look where
  status : SessionStatus
  contextDone : Bool
  deriving DecidableEq

/-- What an attempt is told: the answer of `ConnectProxy` and, when that is a session, what the
looks at it find. -/
structure Reply where
  answer : Answer
  looks : List Look

/-- What one pass over the endpoints is told, up to the `select` behind it. -/
structure Round where
  replies : List Reply
  contextDone : Bool

inductive Action where
  | connectProxy (endpoint : GoString) (answer : Answer)
  | setProxyConnections (entries : List ProxyConnectionEntry)
  | setProxies (entries : List ProxyStatEntry)
  | waitSessionReadyOrContext (sess : Session)
  | status (sess : Session) (seen : SessionStatus)
  | selectDoneOrAfter
  | returns
  deriving DecidableEq

def clearLists : List Action := [.setProxyConnections [], .setProxies []]

/-- The loop of `waitSessionReadyOrContext`, with the actions that follow when it returns. Where
the looks end it is still waiting. -/
def waitSession (sess : Session) : List Look → List Action → List Action
  | [], _ => []
  | look :: looks, next =>
      .status sess look.status ::
        if look.status ≠ .ready ∨ look.contextDone then next else waitSession sess looks next

/-- The body of the inner loop, with the actions that follow when it goes on. -/
def attempt (endpoint : GoString) (reply : Reply) (next : List Action) : List Action :=
  .connectProxy endpoint reply.answer ::
    match reply.answer with
    | .error message =>
        if isTerminalClientSessionError message then clearLists ++ [.returns] else next
    | .ok sess =>
        [.setProxyConnections [connectionEntry endpoint sess], .setProxies [statEntry sess],
          .waitSessionReadyOrContext sess] ++ waitSession sess reply.looks (clearLists ++ next)

/-- The inner loop. Where the replies end, `ConnectProxy` has not returned. -/
def pass : List GoString → List Reply → List Action → List Action
  | [], _, next => next
  | _ :: _, [], _ => []
  | endpoint :: endpoints, reply :: replies, next =>
      attempt endpoint reply (pass endpoints replies next)

/-- The outer loop. -/
def passes (endpoints : List GoString) : List Round → List Action
  | [] => []
  | round :: later =>
      pass endpoints round.replies
        (.selectDoneOrAfter :: if round.contextDone then [.returns] else passes endpoints later)

/-- `registered` are the network addresses that `RegisteredProxies` returns, if it succeeds. -/
def tryConnectFirstProxy (registered : Option (List GoString)) (rounds : List Round) :
    List Action :=
  match registered with
  | some (first :: _) =>
      if splitEndpoints first = [] then [.returns] else passes (splitEndpoints first) rounds
  | _ => [.returns]

structure Lists where
  connections : List ProxyConnectionEntry
  proxies : List ProxyStatEntry
  deriving DecidableEq

def noLists : Lists := ⟨[], []⟩

def Lists.after (lists : Lists) : Action → Lists
  | .setProxyConnections entries => { lists with connections := entries }
  | .setProxies entries => { lists with proxies := entries }
  | _ => lists

def listsAfter (actions : List Action) : Lists := actions.foldl Lists.after noLists

end Discovery

section Published

/-- The endpoints that the registry names for clients. -/
def ClientEndpoint (registered : Option (List GoString)) (endpoint : GoString) : Prop :=
  ∃ raw others, registered = some (raw :: others) ∧
    (wordsOf raw = [endpoint] ∨ endpoint ∈ (wordsOf raw).tail)

def ListsOnly (lists : Lists) (endpoint : GoString) (sess : Session) : Prop :=
  (lists.connections = [] ∨ lists.connections = [connectionEntry endpoint sess]) ∧
    (lists.proxies = [] ∨ lists.proxies = [statEntry sess])

/-- Every look but one that was the very last action has found the session ready. -/
def SeenReady (since : List Action) : Prop :=
  ∀ sess seen, .status sess seen ∈ since.dropLast → seen = .ready

def Unconnected (since : List Action) : Prop :=
  ∀ endpoint answer, .connectProxy endpoint answer ∉ since

/-- What is published after these actions is about the session that `ConnectProxy` returned last,
and when that is shown as ready, it was found ready ever since. -/
structure Shows (allowed : GoString → Prop) (actions : List Action) (endpoint : GoString)
    (sess : Session) : Prop where
  may : allowed endpoint
  only : ListsOnly (listsAfter actions) endpoint sess
  returned : ∃ before since, actions = before ++ .connectProxy endpoint (.ok sess) :: since ∧
    Unconnected since ∧ ((listsAfter actions).connections ≠ [] → SeenReady since)

/-- What holds after any number of actions. -/
structure Honest (allowed : GoString → Prop) (actions : List Action) : Prop where
  shows : listsAfter actions = noLists ∨ ∃ endpoint sess, Shows allowed actions endpoint sess
  watched : ∀ sess, actions.getLast? = some (.waitSessionReadyOrContext sess) →
    ∃ endpoint, allowed endpoint ∧
      listsAfter actions = ⟨[connectionEntry endpoint sess], [statEntry sess]⟩
  ended : actions.getLast? = some .returns → listsAfter actions = noLists

/-- The actions so far, and every longer history up to the end, satisfy the predicate. -/
def Always (holds : List Action → Prop) (actions : List Action) : List Action → Prop
  | [] => holds actions
  | action :: later => holds actions ∧ Always holds (actions ++ [action]) later

theorem always_take {holds : List Action → Prop} {later : List Action} :
    ∀ {actions : List Action}, Always holds actions later → ∀ count,
      holds (actions ++ later.take count) := by
  induction later with
  | nil =>
      intro actions always count
      rw [List.take_nil, List.append_nil]
      exact always
  | cons action later ih =>
      intro actions always count
      cases count with
      | zero =>
          rw [List.take_zero, List.append_nil]
          exact always.1
      | succ count => simpa using ih always.2 count

variable {allowed : GoString → Prop} {actions later : List Action} {endpoint : GoString}
  {sess : Session}

theorem lists_after_snoc (actions : List Action) (action : Action) :
    listsAfter (actions ++ [action]) = (listsAfter actions).after action := by
  rw [listsAfter, List.foldl_append]
  rfl

structure Idle (actions : List Action) : Prop where
  empty : listsAfter actions = noLists
  free : ∀ sess, actions.getLast? ≠ some (.waitSessionReadyOrContext sess)

theorem Idle.honest (idle : Idle actions) : Honest allowed actions :=
  ⟨.inl idle.empty, fun sess last => absurd last (idle.free sess), fun _ => idle.empty⟩

theorem Idle.snoc (idle : Idle actions) {action : Action} (still : noLists.after action = noLists)
    (free : ∀ sess, action ≠ .waitSessionReadyOrContext sess) : Idle (actions ++ [action]) := by
  constructor
  · rw [lists_after_snoc, idle.empty, still]
  · simpa using free

/-- The session is published and was found ready at every look. -/
structure Waits (allowed : GoString → Prop) (actions : List Action) (endpoint : GoString)
    (sess : Session) : Prop where
  may : allowed endpoint
  lists : listsAfter actions = ⟨[connectionEntry endpoint sess], [statEntry sess]⟩
  returned : ∃ before since, actions = before ++ .connectProxy endpoint (.ok sess) :: since ∧
    Unconnected since ∧ ∀ sess seen, .status sess seen ∈ since → seen = .ready

theorem Waits.shows (waits : Waits allowed actions endpoint sess) :
    Shows allowed actions endpoint sess := by
  obtain ⟨before, since, split, apart, ready⟩ := waits.returned
  refine ⟨waits.may, ?_, before, since, split, apart, fun _ sess seen inside => ?_⟩
  · rw [waits.lists]
    exact ⟨.inr rfl, .inr rfl⟩
  · exact ready sess seen (List.mem_of_mem_dropLast inside)

theorem unconnected_snoc {since : List Action} (apart : Unconnected since) {action : Action}
    (other : Unconnected [action]) : Unconnected (since ++ [action]) := by
  intro endpoint answer inside
  rcases List.mem_append.mp inside with old | new
  · exact apart endpoint answer old
  · exact other endpoint answer new

theorem Waits.snoc (waits : Waits allowed actions endpoint sess) {action : Action}
    (still : (listsAfter actions).after action = listsAfter actions)
    (other : Unconnected [action])
    (ready : ∀ sess seen, action = .status sess seen → seen = .ready) :
    Waits allowed (actions ++ [action]) endpoint sess := by
  obtain ⟨before, since, split, apart, seenReady⟩ := waits.returned
  refine ⟨waits.may, ?_, before, since ++ [action], ?_, unconnected_snoc apart other, ?_⟩
  · rw [lists_after_snoc, still, waits.lists]
  · rw [split, List.append_assoc, List.cons_append]
  · intro other seen inside
    rcases List.mem_append.mp inside with old | new
    · exact seenReady other seen old
    · exact ready other seen (List.mem_singleton.mp new).symm

theorem Waits.honest (waits : Waits allowed actions endpoint sess)
    (same : ∀ other, actions.getLast? = some (.waitSessionReadyOrContext other) → other = sess)
    (goesOn : actions.getLast? ≠ some .returns) : Honest allowed actions := by
  refine ⟨.inr ⟨endpoint, sess, waits.shows⟩, ?_, fun last => absurd last goesOn⟩
  intro other last
  obtain rfl := same other last
  exact ⟨endpoint, waits.may, waits.lists⟩

theorem always_clear (waits : Waits allowed actions endpoint sess) (seen : SessionStatus)
    (next : ∀ history : List Action, Idle history → Always (Honest allowed) history later) :
    Always (Honest allowed) (actions ++ [.status sess seen]) (clearLists ++ later) := by
  obtain ⟨before, since, split, apart, ready⟩ := waits.returned
  have apartLooked : Unconnected (since ++ [.status sess seen]) :=
    unconnected_snoc apart (by simp [Unconnected])
  have apartUnlisted : Unconnected (since ++ [.status sess seen] ++ [.setProxyConnections []]) :=
    unconnected_snoc apartLooked (by simp [Unconnected])
  have looked : listsAfter (actions ++ [.status sess seen]) =
      ⟨[connectionEntry endpoint sess], [statEntry sess]⟩ := by
    rw [lists_after_snoc, waits.lists]
    rfl
  have unlisted : listsAfter (actions ++ [.status sess seen] ++ [.setProxyConnections []]) =
      ⟨[], [statEntry sess]⟩ := by
    rw [lists_after_snoc, looked]
    rfl
  refine ⟨⟨.inr ⟨endpoint, sess, waits.may, ?_, before, _, ?_, apartLooked, ?_⟩, ?_, ?_⟩,
    ⟨.inr ⟨endpoint, sess, waits.may, ?_, before, _, ?_, apartUnlisted, ?_⟩, ?_, ?_⟩, ?_⟩
  · rw [looked]
    exact ⟨.inr rfl, .inr rfl⟩
  · rw [split, List.append_assoc, List.cons_append]
  · intro _ other found inside
    rw [List.dropLast_concat] at inside
    exact ready other found inside
  · simp
  · simp
  · rw [unlisted]
    exact ⟨.inl rfl, .inr rfl⟩
  · rw [split]
    simp
  · intro shown
    rw [unlisted] at shown
    exact absurd rfl shown
  · simp
  · simp
  · refine next _ ⟨?_, by simp⟩
    rw [lists_after_snoc, unlisted]
    rfl

theorem always_wait (looks : List Look)
    (next : ∀ history : List Action, Idle history → Always (Honest allowed) history later) :
    ∀ actions : List Action, Waits allowed actions endpoint sess →
      (∀ other, actions.getLast? = some (.waitSessionReadyOrContext other) → other = sess) →
      actions.getLast? ≠ some .returns →
      Always (Honest allowed) actions (waitSession sess looks (clearLists ++ later)) := by
  induction looks with
  | nil => exact fun actions waits same goesOn => waits.honest same goesOn
  | cons look looks ih =>
      intro actions waits same goesOn
      refine ⟨waits.honest same goesOn, ?_⟩
      split_ifs with ends
      · exact always_clear waits look.status next
      · have ready : look.status = .ready := by
          by_contra lost
          exact ends (.inl lost)
        refine ih _ (waits.snoc rfl (by simp [Unconnected]) ?_) (by simp) (by simp)
        intro other seen here
        cases here
        exact ready

theorem always_attempt (may : allowed endpoint) (reply : Reply)
    (next : ∀ history : List Action, Idle history → Always (Honest allowed) history later)
    (idle : Idle actions) : Always (Honest allowed) actions (attempt endpoint reply later) := by
  have connected : Idle (actions ++ [.connectProxy endpoint reply.answer]) :=
    idle.snoc rfl (by simp)
  refine ⟨idle.honest, ?_⟩
  cases answer : reply.answer with
  | error message =>
      rw [answer] at connected
      dsimp only
      split_ifs
      · have unlisted :=
          connected.snoc (rfl : noLists.after (.setProxyConnections []) = _) (by simp)
        have cleared := unlisted.snoc (rfl : noLists.after (.setProxies []) = _) (by simp)
        exact ⟨connected.honest, unlisted.honest, cleared.honest,
          (cleared.snoc (rfl : noLists.after .returns = _) (by simp)).honest⟩
      · exact next _ connected
  | ok sess =>
      rw [answer] at connected
      have listed : listsAfter (actions ++ [.connectProxy endpoint (.ok sess)] ++
          [.setProxyConnections [connectionEntry endpoint sess]]) =
          ⟨[connectionEntry endpoint sess], []⟩ := by
        rw [lists_after_snoc, connected.empty]
        rfl
      have published : Waits allowed (actions ++ [.connectProxy endpoint (.ok sess)] ++
          [.setProxyConnections [connectionEntry endpoint sess]] ++ [.setProxies [statEntry sess]])
          endpoint sess := by
        refine ⟨may, ?_, actions, [.setProxyConnections [connectionEntry endpoint sess],
          .setProxies [statEntry sess]], by simp, by simp [Unconnected], by simp⟩
        rw [lists_after_snoc, listed]
        rfl
      refine ⟨connected.honest, ⟨.inr ⟨endpoint, sess, may, ?_, actions,
        [.setProxyConnections [connectionEntry endpoint sess]], by simp, by simp [Unconnected], ?_⟩,
          by simp, by simp⟩,
        published.honest (by simp) (by simp), ?_⟩
      · rw [listed]
        exact ⟨.inr rfl, .inl rfl⟩
      · intro _ other seen inside
        cases inside
      · refine always_wait reply.looks next _
          (published.snoc rfl (by simp [Unconnected]) (by simp)) ?_ (by simp)
        intro other last
        simpa using last.symm

theorem always_pass {endpoints : List GoString} (may : ∀ endpoint ∈ endpoints, allowed endpoint)
    (next : ∀ history : List Action, Idle history → Always (Honest allowed) history later) :
    ∀ (replies : List Reply) (actions : List Action), Idle actions →
      Always (Honest allowed) actions (pass endpoints replies later) := by
  induction endpoints with
  | nil => exact fun replies actions idle => next actions idle
  | cons endpoint endpoints ih =>
      obtain ⟨here, others⟩ := List.forall_mem_cons.mp may
      intro replies actions idle
      cases replies with
      | nil => exact idle.honest
      | cons reply replies => exact always_attempt here reply (ih others replies) idle

theorem always_passes {endpoints : List GoString} (may : ∀ endpoint ∈ endpoints, allowed endpoint)
    (rounds : List Round) : ∀ actions : List Action, Idle actions →
      Always (Honest allowed) actions (passes endpoints rounds) := by
  induction rounds with
  | nil => exact fun actions idle => idle.honest
  | cons round later ih =>
      refine always_pass may ?_ round.replies
      intro history idle
      have waited := idle.snoc (rfl : noLists.after .selectDoneOrAfter = _) (by simp)
      refine ⟨idle.honest, ?_⟩
      split_ifs
      · exact ⟨waited.honest, (waited.snoc (rfl : noLists.after .returns = _) (by simp)).honest⟩
      · exact ih _ waited

theorem always_honest (registered : Option (List GoString)) (rounds : List Round) :
    Always (Honest (ClientEndpoint registered)) [] (tryConnectFirstProxy registered rounds) := by
  have start : Idle [] := ⟨rfl, by simp⟩
  have ended : Always (Honest (ClientEndpoint registered)) [] [.returns] :=
    ⟨start.honest, (start.snoc (rfl : noLists.after .returns = _) (by simp)).honest⟩
  rcases registered with _ | _ | ⟨first, others⟩
  · exact ended
  · exact ended
  · rw [tryConnectFirstProxy]
    split_ifs
    · exact ended
    · exact always_passes (fun endpoint listed => ⟨first, others, rfl, endpoint_word listed⟩)
        rounds [] start

theorem discovery_honest (registered : Option (List GoString)) (rounds : List Round) (count : Nat) :
    Honest (ClientEndpoint registered) ((tryConnectFirstProxy registered rounds).take count) :=
  always_take (always_honest registered rounds) count

theorem waited_published {registered : Option (List GoString)} {rounds : List Round} {count : Nat}
    {sess : Session} (waits : (tryConnectFirstProxy registered rounds)[count]? =
      some (.waitSessionReadyOrContext sess)) :
    ∃ endpoint, ClientEndpoint registered endpoint ∧
      listsAfter ((tryConnectFirstProxy registered rounds).take count) =
        ⟨[connectionEntry endpoint sess], [statEntry sess]⟩ := by
  have longer : (tryConnectFirstProxy registered rounds).take (count + 1) =
      (tryConnectFirstProxy registered rounds).take count ++ [.waitSessionReadyOrContext sess] := by
    rw [List.take_add_one, waits]
    rfl
  have honest := discovery_honest registered rounds (count + 1)
  rw [longer] at honest
  obtain ⟨endpoint, may, lists⟩ := honest.watched sess (by simp)
  rw [lists_after_snoc] at lists
  exact ⟨endpoint, may, lists⟩

/-- A look that finds the session not ready is followed by the withdrawal. -/
def Withdraws (actions : List Action) : Prop :=
  ∀ front sess seen later, actions = front ++ .status sess seen :: later → seen ≠ .ready →
    clearLists <+: later

theorem withdraws_nil : Withdraws [] := by
  intro front sess seen later split
  cases front <;> cases split

theorem withdraws_cons {action : Action}
    (here : ∀ sess seen, action = .status sess seen → seen ≠ .ready → clearLists <+: later)
    (rest : Withdraws later) : Withdraws (action :: later) := by
  intro front sess seen behind split lost
  cases front with
  | nil =>
      obtain ⟨rfl, rfl⟩ := List.cons.inj split
      exact here sess seen rfl lost
  | cons first front =>
      obtain ⟨-, inside⟩ := List.cons.inj split
      exact rest front sess seen behind inside lost

theorem withdraws_clear (next : Withdraws later) : Withdraws (clearLists ++ later) :=
  withdraws_cons (by simp) (withdraws_cons (by simp) next)

theorem withdraws_wait (next : Withdraws later) (looks : List Look) :
    Withdraws (waitSession sess looks (clearLists ++ later)) := by
  induction looks with
  | nil => exact withdraws_nil
  | cons look looks ih =>
      rw [waitSession]
      split_ifs with ends
      · exact withdraws_cons (fun _ _ _ _ => List.prefix_append _ _) (withdraws_clear next)
      · refine withdraws_cons ?_ ih
        intro other seen here lost
        cases here
        exact absurd (.inl lost) ends

theorem withdraws_attempt (next : Withdraws later) (endpoint : GoString) (reply : Reply) :
    Withdraws (attempt endpoint reply later) := by
  refine withdraws_cons (by simp) ?_
  cases reply.answer with
  | error message =>
      dsimp only
      split_ifs
      · exact withdraws_clear (withdraws_cons (by simp) withdraws_nil)
      · exact next
  | ok sess =>
      exact withdraws_cons (by simp) (withdraws_cons (by simp) (withdraws_cons (by simp)
        (withdraws_wait next reply.looks)))

theorem withdraws_pass (next : Withdraws later) (endpoints : List GoString) :
    ∀ replies : List Reply, Withdraws (pass endpoints replies later) := by
  induction endpoints with
  | nil => exact fun _ => next
  | cons endpoint endpoints ih =>
      intro replies
      cases replies with
      | nil => exact withdraws_nil
      | cons reply replies => exact withdraws_attempt (ih replies) endpoint reply

theorem withdraws_passes (endpoints : List GoString) (rounds : List Round) :
    Withdraws (passes endpoints rounds) := by
  induction rounds with
  | nil => exact withdraws_nil
  | cons round later ih =>
      refine withdraws_pass (withdraws_cons (by simp) ?_) endpoints round.replies
      split_ifs
      · exact withdraws_cons (by simp) withdraws_nil
      · exact ih

theorem withdraws_discovery (registered : Option (List GoString)) (rounds : List Round) :
    Withdraws (tryConnectFirstProxy registered rounds) := by
  have ended : Withdraws [.returns] := withdraws_cons (by simp) withdraws_nil
  rw [tryConnectFirstProxy.eq_def]
  split
  · split_ifs
    · exact ended
    · exact withdraws_passes _ rounds
  · exact ended

/-- After any number of actions of the discovery the two lists are empty or about one session: the
one that `ConnectProxy` returned last, to an endpoint that the registry names for clients. As long
as it is shown as ready, every look at it since then has found it ready, except one that was the
very last action; the two actions after a look that finds it otherwise take it off both lists.
Nothing stays published when the discovery returns. -/
theorem shown_session_was_seen_ready (registered : Option (List GoString)) (rounds : List Round) :
    (∀ count, listsAfter ((tryConnectFirstProxy registered rounds).take count) = noLists ∨
      ∃ endpoint sess, Shows (ClientEndpoint registered)
        ((tryConnectFirstProxy registered rounds).take count) endpoint sess) ∧
    (∀ front sess seen later,
      tryConnectFirstProxy registered rounds = front ++ .status sess seen :: later →
      seen ≠ .ready → clearLists <+: later) ∧
    ∀ front later, tryConnectFirstProxy registered rounds = front ++ .returns :: later →
      listsAfter front = noLists := by
  refine ⟨fun count => (discovery_honest registered rounds count).shows,
    withdraws_discovery registered rounds, ?_⟩
  intro front later split
  have honest := discovery_honest registered rounds (front.length + 1)
  have longer : (tryConnectFirstProxy registered rounds).take (front.length + 1) =
      front ++ [.returns] := by
    simp [split, List.take_append]
  rw [longer] at honest
  have ended := honest.ended (by simp)
  rwa [lists_after_snoc] at ended

end Published

section Sample

def sampleRegistered : Option (List GoString) := some [ascii "workers:1 clients:2"]

def sampleSession : Session := ⟨ascii "proxy", ascii "client"⟩

/-- A session that is seen ready once and then lost, after which the context is done. -/
def sampleRounds : List Round :=
  [⟨[⟨.ok sampleSession, [⟨.ready, false⟩, ⟨.crashed, false⟩]⟩], true⟩]

theorem sample_discovery : tryConnectFirstProxy sampleRegistered sampleRounds =
    [.connectProxy (ascii "clients:2") (.ok sampleSession),
      .setProxyConnections [connectionEntry (ascii "clients:2") sampleSession],
      .setProxies [statEntry sampleSession], .waitSessionReadyOrContext sampleSession,
      .status sampleSession .ready, .status sampleSession .crashed, .setProxyConnections [],
      .setProxies [], .selectDoneOrAfter, .returns] := by decide +kernel

theorem lost_session_withdrawn :
    (∃ endpoint sess, Shows (ClientEndpoint sampleRegistered)
      ((tryConnectFirstProxy sampleRegistered sampleRounds).take 5) endpoint sess) ∧
    clearLists <+: (tryConnectFirstProxy sampleRegistered sampleRounds).drop 6 ∧
    listsAfter ((tryConnectFirstProxy sampleRegistered sampleRounds).take 9) = noLists := by
  obtain ⟨shows, withdraws, ended⟩ := shown_session_was_seen_ready sampleRegistered sampleRounds
  refine ⟨?_, ?_, ?_⟩
  · rcases shows 5 with empty | shown
    · exact absurd (congrArg Lists.connections empty) (by decide +kernel)
    · exact shown
  · exact withdraws ((tryConnectFirstProxy sampleRegistered sampleRounds).take 5) sampleSession
      .crashed _ (by rw [sample_discovery]; rfl) (by decide)
  · exact ended _ [] (by rw [sample_discovery]; rfl)

end Sample

end Gocoon.RunnerDiscovery
