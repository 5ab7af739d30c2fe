import Gocoon.JsonValues
import Gocoon.NanoAmounts
import Gocoon.RunnerDiscovery

/-!
# From the published session to the channel commands

`/jsonstats` prints the runner's state, and `gocoon channel` takes the address of the client
contract from there when none is given. Together with the discovery this says which contract such
a command is about: the one that the proxy named in a session which the runner has connected.
-/

namespace Gocoon.RunnerStats

open Gocoon.TlPrimitives
open Gocoon.Utf8Text
open Gocoon.GoStrings
open Gocoon.JsonText
open Gocoon.JsonPrinting
open Gocoon.JsonValues
open Gocoon.DecimalLiterals
open Gocoon.NanoAmounts
open Gocoon.RunnerDiscovery

set_option autoImplicit false

section Runner

def connectionValue (entry : ProxyConnectionEntry) : Value ℤ :=
  .obj [(ascii "address", .str entry.address), (ascii "is_ready", .bool entry.isReady),
    (ascii "proxy_sc_address", .str entry.proxySCAddress)]

def proxyValue (entry : ProxyStatEntry) : Value ℤ :=
  .obj [(ascii "proxy_sc_address", .str entry.proxySCAddress),
    (ascii "proxy_public_key", .str entry.proxyPublicKey),
    (ascii "sc_address", .str entry.scAddress),
    (ascii "state", .num entry.state),
    (ascii "tokens_used_proxy_committed_to_blockchain",
      .num entry.tokensUsedProxyCommittedToBlockchain),
    (ascii "tokens_used_proxy_committed_to_db", .num entry.tokensUsedProxyCommittedToDB),
    (ascii "tokens_used_proxy_max", .num entry.tokensUsedProxyMax),
    (ascii "tokens_charged", .num entry.tokensCharged),
    (ascii "tokens_payed", .num entry.tokensPayed)]

def jsonStatsResponse (state : RunnerState) : Value ℤ :=
  .obj [(ascii "status", .obj [(ascii "wallet_balance", .num state.walletBalance.toNat),
      (ascii "ton_last_synced_at", .num state.tonLastSyncedAt.toInt),
      (ascii "enabled", .bool state.enabled), (ascii "git_commit", .str state.gitCommit)]),
    (ascii "localconf", .obj [(ascii "root_address", .str state.rootAddress),
      (ascii "owner_address", .str state.ownerAddress),
      (ascii "check_image_hashes", .bool state.checkImageHashes)]),
    (ascii "proxy_connections", .arr (state.proxyConnections.map connectionValue)),
    (ascii "proxies", .arr (state.proxies.map proxyValue))]

/-- The status and the body of the reply; `Encode` ends the text with a newline. -/
def handleJSONStats (method : GoString) (state : RunnerState) : Nat × GoString :=
  if method ≠ ascii "GET" then (405, ascii "method not allowed\n")
  else (200, print bigString (jsonStatsResponse state) ++ [0x0A])

end Runner

section Command

inductive StatsError where
  | status (code : Nat)
  | decode (cause : DecodeError)
  | noReadyClient
  deriving DecidableEq

/-- An item of `proxies`, of which the command reads one field. -/
def scAddressOf : Json → Option GoString
  | .obj members =>
      let (address, failed) := decodeField (ascii "sc_address") storeString []
        (members.map fun member => ⟨member.1, [], member.2⟩)
      if failed then none else some address
  | .null => some []
  | _ => none

def storeProxies (_ : List GoString) (member : Member) : Option (List GoString) :=
  (sliceItems member.value).bind fun items => items.mapM scAddressOf

def firstReady (proxies : List GoString) : Except StatsError GoString :=
  match proxies.find? fun address => trimSpace address ≠ [] with
  | some address => .ok address
  | none => .error .noReadyClient

/-- `firstClientSC` on the reply that `getURL` gets. -/
def firstClientSC (response : Nat × GoString) : Except StatsError GoString :=
  if response.1 < 200 ∨ 300 ≤ response.1 then .error (.status response.1)
  else
    match structMembers response.2 with
    | .error cause => .error (.decode cause)
    | .ok members =>
        let (proxies, failed) := decodeField (ascii "proxies") storeProxies [] members
        if failed then .error (.decode .mismatch) else firstReady proxies

end Command

section Reading

theorem big_string_literal (number : ℤ) : NumberLiteral (bigString number) := by
  have valid : NumberParts.Valid ⟨decide (number < 0), decimalDigits number.natAbs, [], none⟩ := by
    refine ⟨decimal_digits_digit _, ?_, by simp⟩
    by_cases zero : number.natAbs = 0
    · exact .inl (by rw [zero]; rfl)
    · exact .inr ⟨decimal_digits_ne_nil _, decimal_digits_leading zero⟩
  have literal := NumberParts.text_literal valid
  simpa [NumberParts.text, fractionText, exponentText, bigString] using literal

theorem decode_field_once {Held : Type} {name : GoString} {store : Held → Member → Option Held}
    {zero value : Held} {front back : List Member} {member : Member}
    (others : ∀ key ∈ (front ++ back).map Member.key, foldName key ≠ foldName name)
    (same : foldName member.key = foldName name) (stored : store zero member = some value) :
    decodeField name store zero (front ++ member :: back) = (value, false) := by
  have skipped : ∀ (members : List Member) (state : Held × Bool),
      (∀ key ∈ members.map Member.key, foldName key ≠ foldName name) →
      members.foldl (storeField name store) state = state := by
    intro members state apart
    induction members with
    | nil => rfl
    | cons first rest ih =>
        obtain ⟨here, later⟩ := List.forall_mem_cons.mp apart
        rw [List.foldl_cons, storeField, if_neg here]
        exact ih later
  simp only [List.map_append, List.mem_append] at others
  rw [decodeField, List.foldl_append, skipped front _ fun key inside => others key (.inl inside),
    List.foldl_cons, storeField, if_pos same, stored]
  exact skipped back _ fun key inside => others key (.inr inside)

theorem struct_members_encoded {object : List (GoString × Value ℤ)}
    (shallow : depthMembers object < maxNestingDepth) :
    structMembers (print bigString (.obj object) ++ [0x0A]) =
      .ok (object.map (readMember bigString)) := by
  have stops : Stops [0x0A] := stops_cons (by decide) []
  have fits : depth (.obj object : Value ℤ) ≤ maxNestingDepth := shallow
  have skipped : skipSpace (print bigString (.obj object) ++ [0x0A]) =
      print bigString (.obj object) ++ [0x0A] := skip_space_cons (by decide) _
  have value := parse_value_printed big_string_literal (.obj object) maxNestingDepth [0x0A] stops
  have members := parse_object_printed big_string_literal
    (fun member (_ : member ∈ object) =>
      parse_value_printed big_string_literal member.2 (maxNestingDepth - 1)) [0x0A]
  rw [if_pos fits] at value
  rw [if_pos (Nat.le_sub_one_of_lt shallow)] at members
  have parsed : parse (print bigString (.obj object) ++ [0x0A]) =
      some (mapValue bigString coerce (.obj object)) := by
    rw [parse, skipped, value]
    rfl
  simp only [structMembers, parsed, mapValue, objectMembers, skipped, members]

theorem sc_address_object {members : List (GoString × Json)} {address : GoString}
    (field : decodeField (ascii "sc_address") storeString []
      (members.map fun member => ⟨member.1, [], member.2⟩) = (address, false)) :
    scAddressOf (.obj members) = some address := by
  rw [scAddressOf, field]
  rfl

theorem sc_address_read (entry : ProxyStatEntry) :
    scAddressOf (mapValue bigString coerce (proxyValue entry)) = some (coerce entry.scAddress) := by
  have others : ∀ key ∈ [ascii "proxy_sc_address", ascii "proxy_public_key", ascii "state",
      ascii "tokens_used_proxy_committed_to_blockchain",
      ascii "tokens_used_proxy_committed_to_db", ascii "tokens_used_proxy_max",
      ascii "tokens_charged", ascii "tokens_payed"].map coerce,
      foldName key ≠ foldName (ascii "sc_address") := by decide +kernel
  have same : foldName (coerce (ascii "sc_address")) = foldName (ascii "sc_address") := by
    decide +kernel
  simp only [proxyValue, mapValue, mapMembers]
  refine sc_address_object ?_
  refine @decode_field_once _ _ _ _ _ [_, _] [_, _, _, _, _, _] _ ?_ same rfl
  exact others

theorem proxies_read (entries : List ProxyStatEntry) :
    (mapItems bigString coerce (entries.map proxyValue)).mapM scAddressOf =
      some (entries.map fun entry => coerce entry.scAddress) := by
  induction entries with
  | nil => rfl
  | cons entry entries ih =>
      rw [List.map_cons, mapItems, List.mapM_cons, sc_address_read, ih]
      rfl

theorem stats_shallow (state : RunnerState) (members : List (GoString × Value ℤ))
    (shape : jsonStatsResponse state = .obj members) : depthMembers members < maxNestingDepth := by
  have connections : depthItems (state.proxyConnections.map connectionValue) ≤ 1 := by
    rw [depth_items_le]
    simp [connectionValue, depth, depthMembers]
  have proxies : depthItems (state.proxies.map proxyValue) ≤ 1 := by
    rw [depth_items_le]
    simp [proxyValue, depth, depthMembers]
  obtain rfl := Value.obj.inj shape
  simp only [depthMembers, depth, maxNestingDepth]
  omega

theorem first_of_members {body : GoString} {members : List Member} {proxies : List GoString}
    (read : structMembers body = .ok members)
    (field : decodeField (ascii "proxies") storeProxies [] members = (proxies, false)) :
    firstClientSC (200, body) = firstReady proxies := by
  have fine : ¬ ((200 : Nat) < 200 ∨ 300 ≤ 200) := by decide
  rw [firstClientSC, if_neg fine, read]
  simp only [field, Bool.false_eq_true, if_false]

theorem shown_address (state : RunnerState) :
    firstClientSC (handleJSONStats (ascii "GET") state) =
      firstReady (state.proxies.map fun entry => coerce entry.scAddress) := by
  have others : ∀ key ∈ [ascii "status", ascii "localconf", ascii "proxy_connections"].map coerce,
      foldName key ≠ foldName (ascii "proxies") := by decide +kernel
  have same : foldName (coerce (ascii "proxies")) = foldName (ascii "proxies") := by
    decide +kernel
  have stored : storeProxies [] (readMember bigString
      (ascii "proxies", .arr (state.proxies.map proxyValue))) =
      some (state.proxies.map fun entry => coerce entry.scAddress) := by
    simp only [storeProxies, readMember, mapValue, sliceItems, Option.bind_some]
    exact proxies_read state.proxies
  have shown : handleJSONStats (ascii "GET") state =
      (200, print bigString (jsonStatsResponse state) ++ [0x0A]) := if_neg (by simp)
  rw [shown]
  refine first_of_members (struct_members_encoded (stats_shallow state _ rfl)) ?_
  refine @decode_field_once _ _ _ _ _ [_, _, _] [] _ ?_ same stored
  exact others

end Reading

/-- The state of the runner with the lists that the discovery has set; the wallet poll and the
configuration set the other fields. -/
def withLists (state : RunnerState) (lists : Lists) : RunnerState :=
  { state with proxyConnections := lists.connections, proxies := lists.proxies }

def commandAddress (state : RunnerState) (lists : Lists) : Except StatsError GoString :=
  firstClientSC (handleJSONStats (ascii "GET") (withLists state lists))

theorem command_of_session {state : RunnerState} {lists : Lists} {sess : Session}
    (one : lists.proxies = [statEntry sess]) :
    commandAddress state lists =
      if trimSpace (coerce sess.clientSCAddress) ≠ [] then .ok (coerce sess.clientSCAddress)
      else .error .noReadyClient := by
  rw [commandAddress, shown_address, withLists, one, List.map_singleton, firstReady]
  by_cases named : trimSpace (coerce sess.clientSCAddress) = [] <;> simp [statEntry, named]

theorem command_of_none {state : RunnerState} {lists : Lists} (none : lists.proxies = []) :
    commandAddress state lists = .error .noReadyClient := by
  rw [commandAddress, shown_address, withLists, none]
  rfl

/-- At any moment of the discovery, and whatever else the state of the runner is, a channel command
finds no client contract or the one that the proxy named in a session which `ConnectProxy` has
returned. While a session is waited for, it finds the contract of that session, unless the proxy
named none. -/
theorem channel_commands_follow_discovery (registered : Option (List GoString))
    (rounds : List Round) (count : Nat) (state : RunnerState) :
    (commandAddress state (listsAfter ((tryConnectFirstProxy registered rounds).take count)) =
        .error .noReadyClient ∨
      ∃ endpoint sess, ClientEndpoint registered endpoint ∧
        .connectProxy endpoint (.ok sess) ∈ (tryConnectFirstProxy registered rounds).take count ∧
        commandAddress state (listsAfter ((tryConnectFirstProxy registered rounds).take count)) =
          .ok (coerce sess.clientSCAddress)) ∧
    ∀ sess, (tryConnectFirstProxy registered rounds)[count]? =
        some (.waitSessionReadyOrContext sess) →
      commandAddress state (listsAfter ((tryConnectFirstProxy registered rounds).take count)) =
        if trimSpace (coerce sess.clientSCAddress) ≠ [] then .ok (coerce sess.clientSCAddress)
        else .error .noReadyClient := by
  constructor
  · rcases (discovery_honest registered rounds count).shows with empty | ⟨endpoint, sess, shows⟩
    · rw [empty]
      exact .inl (command_of_none rfl)
    · rcases shows.only.2 with none | one
      · exact .inl (command_of_none none)
      · rw [command_of_session one]
        split_ifs
        · obtain ⟨before, since, split, -⟩ := shows.returned
          refine .inr ⟨endpoint, sess, shows.may, ?_, rfl⟩
          rw [split]
          exact List.mem_append_right _ List.mem_cons_self
        · exact .inl rfl
  · intro sess waited
    obtain ⟨endpoint, -, both⟩ := waited_published waited
    rw [both]
    exact command_of_session rfl

def sampleState : RunnerState :=
  ⟨0, 0, true, ascii "dev", ascii "root", ascii "owner", false, [], []⟩

theorem command_finds_waited_session :
    (tryConnectFirstProxy sampleRegistered sampleRounds)[3]? =
      some (.waitSessionReadyOrContext sampleSession) ∧
    commandAddress sampleState
      (listsAfter ((tryConnectFirstProxy sampleRegistered sampleRounds).take 3)) =
        .ok (ascii "client") := by
  have waited : (tryConnectFirstProxy sampleRegistered sampleRounds)[3]? =
      some (.waitSessionReadyOrContext sampleSession) := by
    rw [sample_discovery]
    rfl
  have found := (channel_commands_follow_discovery sampleRegistered sampleRounds 3 sampleState).2
    sampleSession waited
  exact ⟨waited, found.trans (by decide +kernel)⟩

end Gocoon.RunnerStats
