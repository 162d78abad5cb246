import Mathlib.Algebra.Group.Nat.Defs
import Mathlib.Data.Nat.Notation
import ZapTrace.Library.PyValue

/-!
# The address of a client

Requests are limited by the address of the client. A request from a trusted proxy brings the addresses
it was forwarded for, and the nearest address from the right that is not trusted is the client's. A
list with an item that is no address fails closed: the request is counted for the proxy itself. So the
items before the client's address do not choose the identity, except that a malformed one makes it the
proxy's.

Texts are lists of characters. Addresses and networks are those of Python's `ipaddress` (as of Python
3.12): an IPv4 address or an IPv6 address with a scope, and a network given by its address and its mask.

## Main results

* `resolveClientIp_of_untrusted`, `resolveClientIp_of_suffix`: the identity in each case
* `resolveClientIp_noninterference`: what the identity does not depend on
-/

namespace ZapTrace

open List

/-! ## Addresses -/

inductive IPAddress
  | v4 (ip : ℕ)
  | v6 (ip : ℕ) (scope_id : Option (List Char))
  deriving DecidableEq

structure IPNetwork where
  version : ℕ
  network_address : ℕ
  netmask : ℕ
  deriving DecidableEq

def IPAddress.version : IPAddress → ℕ
  | v4 _ => 4
  | v6 _ _ => 6

def IPAddress.ip : IPAddress → ℕ
  | v4 ip => ip
  | v6 ip _ => ip

/-- `address in network` -/
def IPNetwork.contains (network : IPNetwork) (address : IPAddress) : Bool :=
  network.version = address.version ∧ address.ip &&& network.netmask = network.network_address

/-- `int(text, base)` of digits. -/
def digitsValue (base : ℕ) (digits : List Char) : ℕ :=
  digits.foldl (fun n c =>
    n * base + if c.isDigit then c.toNat - 48 else c.toLower.toNat - 87) 0

/-- One number of an IPv4 address, without leading zeros. -/
def parseOctet (octet : List Char) : Option ℕ :=
  if octet = [] ∨ ¬ octet.all Char.isDigit then none
  else if octet.length > 3 then none
  else if octet ≠ ['0'] ∧ octet.head? = some '0' then none
  else if digitsValue 10 octet > 255 then none
  else some (digitsValue 10 octet)

/-- The number of an IPv4 address. -/
def ipv4Int (text : List Char) : Option ℕ :=
  if '/' ∈ text then none
  else
    match (text.splitOn '.').map parseOctet with
    | [some a, some b, some c, some d] => some (((a * 256 + b) * 256 + c) * 256 + d)
    | _ => none

def isHexDigit (c : Char) : Bool := c.isDigit || c.toLower ∈ ['a', 'b', 'c', 'd', 'e', 'f']

/-- One group of an IPv6 address. -/
def parseHextet (hextet : List Char) : Option ℕ :=
  if hextet = [] ∨ ¬ hextet.all isHexDigit ∨ hextet.length > 4 then none
  else some (digitsValue 16 hextet)

/-- The groups of an IPv6 address; an IPv4 address at its end becomes two groups. -/
def ipv6Parts (text : List Char) : Option (List (List Char)) :=
  let parts := text.splitOn ':'
  if parts.length < 3 then none
  else
    match parts.getLast? with
    | none => none
    | some last =>
      if '.' ∈ last then
        (ipv4Int last).map fun ip =>
          parts.dropLast ++ [Nat.toDigits 16 (ip / 65536 % 65536), Nat.toDigits 16 (ip % 65536)]
      else some parts

/-- The number of the groups from the left, continued from `ip`. -/
def hextetsValue (ip : ℕ) : List (List Char) → Option ℕ
  | [] => some ip
  | hextet :: hextets => (parseHextet hextet).bind fun n => hextetsValue (ip * 65536 + n) hextets

/-- The number of an IPv6 address. A `::` stands for the groups of zeros that are left out. -/
def ipv6Int (parts : List (List Char)) : Option ℕ :=
  if parts.length > 9 then none
  else
    match (range parts.length).filter fun i =>
        0 < i ∧ i + 1 < parts.length ∧ parts[i]? = some [] with
    | _ :: _ :: _ => none
    | [skip] =>
      let parts_hi := if parts.head? = some [] then skip - 1 else skip
      let parts_lo :=
        if parts.getLast? = some [] then parts.length - skip - 2 else parts.length - skip - 1
      if parts.head? = some [] ∧ parts_hi ≠ 0 then none
      else if parts.getLast? = some [] ∧ parts_lo ≠ 0 then none
      else if parts_hi + parts_lo > 7 then none
      else
        (hextetsValue 0 (parts.take parts_hi)).bind fun hi =>
          hextetsValue (hi * 65536 ^ (8 - (parts_hi + parts_lo))) (parts.drop (parts.length - parts_lo))
    | [] =>
      if parts.length ≠ 8 ∨ parts.head? = some [] ∨ parts.getLast? = some [] then none
      else hextetsValue 0 parts

/-- The address and the scope after a `%`. -/
def splitScopeId (text : List Char) : Option (List Char × Option (List Char)) :=
  match text.dropWhile (· ≠ '%') with
  | [] => some (text, none)
  | _ :: scope_id =>
    if scope_id = [] ∨ '%' ∈ scope_id then none
    else some (text.takeWhile (· ≠ '%'), some scope_id)

def ipv6Address (text : List Char) : Option IPAddress :=
  if '/' ∈ text then none
  else
    (splitScopeId text).bind fun (addr, scope_id) =>
      ((ipv6Parts addr).bind ipv6Int).map fun ip => .v6 ip scope_id

def ipAddress (value : List Char) : Option IPAddress :=
  match ipv4Int value with
  | some ip => some (.v4 ip)
  | none => ipv6Address value

/-- The longest run of zero groups, the first of several: its start and its length. -/
def longestZeros (hextets : List (List Char)) : ℕ × ℕ :=
  let run := fun i => ((hextets.drop i).takeWhile (· = ['0'])).length
  (range hextets.length).foldl (fun best i => if best.2 < run i then (i, run i) else best) (0, 0)

/-- The groups with the longest run of zeros left out. -/
def compressHextets (hextets : List (List Char)) : List (List Char) :=
  let (start, len) := longestZeros hextets
  if len > 1 then
    (if start = 0 then [[]] else []) ++ hextets.take start ++ [[]] ++ hextets.drop (start + len) ++
      if start + len = hextets.length then [[]] else []
  else hextets

/-- `str(address)` -/
def IPAddress.str : IPAddress → List Char
  | v4 ip =>
    ['.'].intercalate ([ip / 16777216 % 256, ip / 65536 % 256, ip / 256 % 256, ip % 256].map
      (Nat.toDigits 10))
  | v6 ip scope_id =>
    [':'].intercalate (compressHextets ((range 8).map fun i =>
      Nat.toDigits 16 (ip / 65536 ^ (7 - i) % 65536))) ++
      match scope_id with
      | none => []
      | some scope_id => '%' :: scope_id

/-! ## The identity of a request -/

/-- The networks whose direct connections may supply forwarding metadata. -/
structure TrustedProxyPolicy where
  networks : List IPNetwork

def TrustedProxyPolicy.trusts (policy : TrustedProxyPolicy) (address : IPAddress) : Bool :=
  policy.networks.any fun network => network.contains address

/-- `text.strip()` of the characters that meet a condition. -/
def stripChars (p : Char → Bool) (text : List Char) : List Char :=
  ((text.dropWhile p).reverse.dropWhile p).reverse

/-- `_parse_address`: an address with spaces or brackets around it. -/
def parseAddress (raw : List Char) : Option IPAddress :=
  let value := stripChars (· ∈ ['[', ']']) (stripChars pyIsSpace raw)
  if value = [] then none else ipAddress value

/-- The addresses of the items, unless one of them is none. -/
def parseChain : List (List Char) → Option (List IPAddress)
  | [] => some []
  | item :: items => (parseAddress item).bind fun address => (parseChain items).map (address :: ·)

def resolveClientIp (peer_host forwarded_for : List Char) (policy : TrustedProxyPolicy) : List Char :=
  match parseAddress peer_host with
  | none => ['u', 'n', 'k', 'n', 'o', 'w', 'n']
  | some peer =>
    if forwarded_for = [] ∨ ¬ policy.trusts peer then peer.str
    else
      match parseChain (forwarded_for.splitOn ',') with
      | none => peer.str
      | some chain =>
        match chain.reverse.find? (fun address => ¬ policy.trusts address), chain.head? with
        | some address, _ => address.str
        | none, some first => first.str
        | none, none => peer.str

def WellFormed (items : List (List Char)) : Prop := ∀ item ∈ items, parseAddress item ≠ none

instance (items : List (List Char)) : Decidable (WellFormed items) :=
  inferInstanceAs (Decidable (∀ item ∈ items, parseAddress item ≠ none))

/-- The item is the nearest untrusted address from the right: it is an address that is not trusted, and
the items after it are trusted addresses. -/
structure NearestUntrusted (policy : TrustedProxyPolicy) (address : IPAddress) (item : List Char)
    (right : List (List Char)) : Prop where
  parsed : parseAddress item = some address
  untrusted : policy.trusts address = false
  trusted : ∀ next ∈ right, ∃ proxy, parseAddress next = some proxy ∧ policy.trusts proxy = true

/-! ## What the identity depends on -/

section Chain

variable {items left right : List (List Char)} {policy : TrustedProxyPolicy}

theorem parseChain_append (left right : List (List Char)) :
    parseChain (left ++ right) =
      (parseChain left).bind fun front => (parseChain right).map (front ++ ·) := by
  induction left with
  | nil => simp [parseChain]
  | cons item left ih =>
    rw [cons_append, parseChain, parseChain, ih]
    cases parseAddress item with
    | none => rfl
    | some address =>
      cases parseChain left with
      | none => rfl
      | some front => cases parseChain right <;> rfl

theorem parseChain_eq_none_iff : parseChain items = none ↔ ¬ WellFormed items := by
  induction items with
  | nil => simp [parseChain, WellFormed]
  | cons item items ih =>
    cases h : parseAddress item with
    | none => simp [parseChain, WellFormed, h]
    | some address =>
      have hcons : WellFormed (item :: items) ↔ WellFormed items := by simp [WellFormed, h]
      rw [hcons, ← ih, parseChain, h, Option.bind_some, Option.map_eq_none_iff]

theorem parseChain_trusted
    (h : ∀ item ∈ items, ∃ proxy, parseAddress item = some proxy ∧ policy.trusts proxy = true) :
    ∃ chain, parseChain items = some chain ∧ ∀ address ∈ chain, policy.trusts address = true := by
  induction items with
  | nil => exact ⟨[], rfl, fun address h => absurd h not_mem_nil⟩
  | cons item items ih =>
    obtain ⟨proxy, hproxy, htrusted⟩ := h item mem_cons_self
    obtain ⟨chain, hchain, hall⟩ := ih fun next hnext => h next (mem_cons_of_mem item hnext)
    refine ⟨proxy :: chain, ?_, ?_⟩
    · rw [parseChain, hproxy, hchain]
      rfl
    · intro address haddress
      rcases mem_cons.mp haddress with rfl | haddress
      · exact htrusted
      · exact hall address haddress

end Chain

section Identity

variable {policy : TrustedProxyPolicy} {peer_host : List Char} {peer : IPAddress}

theorem resolveClientIp_of_untrusted (hpeer : parseAddress peer_host = some peer)
    (huntrusted : policy.trusts peer = false) (forwarded_for : List Char) :
    resolveClientIp peer_host forwarded_for policy = peer.str := by
  simp [resolveClientIp, hpeer, huntrusted]

/-- Behind a trusted peer the client has the nearest untrusted address, when the items before it are
addresses, and else the peer's. -/
theorem resolveClientIp_of_suffix (hpeer : parseAddress peer_host = some peer)
    (htrusted : policy.trusts peer = true) {address : IPAddress} {item forwarded_for : List Char}
    {left right : List (List Char)} (hnearest : NearestUntrusted policy address item right)
    (hsplit : forwarded_for.splitOn ',' = left ++ item :: right) :
    (WellFormed left → resolveClientIp peer_host forwarded_for policy = address.str) ∧
      (¬ WellFormed left → resolveClientIp peer_host forwarded_for policy = peer.str) := by
  have hsome : forwarded_for ≠ [] := by
    rintro rfl
    -- the only item of an empty header is empty, and that is no address
    have hitem : item ∈ ([] : List Char).splitOn ',' := by
      rw [hsplit]
      exact mem_append_right _ mem_cons_self
    obtain rfl : item = [] := by simpa using hitem
    cases hnearest.parsed
  obtain ⟨back, hback, hall⟩ := parseChain_trusted hnearest.trusted
  have hsuffix : parseChain (item :: right) = some (address :: back) := by
    rw [parseChain, hnearest.parsed, hback]
    rfl
  have hresolve : resolveClientIp peer_host forwarded_for policy =
      match parseChain (left ++ item :: right) with
      | none => peer.str
      | some chain =>
        match chain.reverse.find? (fun address => ¬ policy.trusts address), chain.head? with
        | some address, _ => address.str
        | none, some first => first.str
        | none, none => peer.str := by
    simp only [resolveClientIp, hpeer, hsome, htrusted, hsplit, false_or, not_true_eq_false, if_false]
  rw [hresolve, parseChain_append, hsuffix]
  constructor
  · intro hleft
    cases hfront : parseChain left with
    | none => exact absurd hleft (parseChain_eq_none_iff.mp hfront)
    | some front =>
      have hnone : back.reverse.find? (fun address => decide ¬ policy.trusts address = true) = none := by
        apply find?_eq_none.mpr
        intro next hnext
        simpa using hall next (mem_reverse.mp hnext)
      have hfind : (front ++ address :: back).reverse.find?
          (fun address => decide ¬ policy.trusts address = true) = some address := by
        rw [reverse_append, reverse_cons, append_assoc, find?_append, hnone]
        simp [hnearest.untrusted]
      simp only [Option.bind_some, Option.map_some, hfind]
  · intro hleft
    rw [parseChain_eq_none_iff.mpr hleft]
    rfl

/-- **What the identity does not depend on**: on the header at all for an untrusted peer, and else on
the items before the nearest untrusted address, as long as they are addresses in both headers or in
none. -/
theorem resolveClientIp_noninterference (policy : TrustedProxyPolicy) (peer_host : List Char) :
    (∀ peer, parseAddress peer_host = some peer → policy.trusts peer = false →
      ∀ forwarded_for forwarded_for', resolveClientIp peer_host forwarded_for policy =
        resolveClientIp peer_host forwarded_for' policy) ∧
    ∀ peer, parseAddress peer_host = some peer → policy.trusts peer = true →
      ∀ address item right, NearestUntrusted policy address item right →
        ∀ left left' forwarded_for forwarded_for',
          forwarded_for.splitOn ',' = left ++ item :: right →
          forwarded_for'.splitOn ',' = left' ++ item :: right →
          (WellFormed left ↔ WellFormed left') →
            resolveClientIp peer_host forwarded_for policy =
              resolveClientIp peer_host forwarded_for' policy := by
  constructor
  · intro peer hpeer huntrusted forwarded_for forwarded_for'
    rw [resolveClientIp_of_untrusted hpeer huntrusted, resolveClientIp_of_untrusted hpeer huntrusted]
  · intro peer hpeer htrusted address item right hnearest left left' header header' hsplit hsplit' hleft
    obtain ⟨hok, hbad⟩ := resolveClientIp_of_suffix hpeer htrusted hnearest hsplit
    obtain ⟨hok', hbad'⟩ := resolveClientIp_of_suffix hpeer htrusted hnearest hsplit'
    by_cases h : WellFormed left
    · rw [hok h, hok' (hleft.mp h)]
    · rw [hbad h, hbad' fun h' => h (hleft.mpr h')]

end Identity

/-! ## A malformed item -/

/-- The network `10.0.0.0/8`. -/
def privateProxies : TrustedProxyPolicy := ⟨[⟨4, 10 * 256 ^ 3, 255 * 256 ^ 3⟩]⟩

def proxyHost : List Char := ['1', '0', '.', '0', '.', '0', '.', '3']

def clientHost : List Char := ['8', '.', '8', '.', '8', '.', '8']

theorem nearestUntrusted_clientHost :
    NearestUntrusted privateProxies (.v4 134744072) clientHost [proxyHost] where
  parsed := by decide
  untrusted := by decide
  trusted := by
    intro next hnext
    obtain rfl := mem_singleton.mp hnext
    exact ⟨.v4 167772163, by decide, by decide⟩

/-- An address that is forged before the client's does not change the identity. -/
theorem resolveClientIp_with_forged_address :
    resolveClientIp proxyHost (clientHost ++ ',' :: proxyHost) privateProxies =
      resolveClientIp proxyHost (proxyHost ++ ',' :: clientHost ++ ',' :: proxyHost)
        privateProxies :=
  (resolveClientIp_noninterference privateProxies proxyHost).2 (.v4 167772163) (by decide)
    (by decide) _ _ _ nearestUntrusted_clientHost [] [proxyHost] _ _ (by decide)
    (by decide) (by decide)

/-- A malformed item before the client's address does. -/
theorem resolveClientIp_with_malformed_item :
    (parseAddress proxyHost).all privateProxies.trusts = true ∧
      NearestUntrusted privateProxies (.v4 134744072) clientHost [proxyHost] ∧
      (clientHost ++ ',' :: proxyHost).splitOn ',' = [] ++ clientHost :: [proxyHost] ∧
      ('x' :: ',' :: clientHost ++ ',' :: proxyHost).splitOn ',' =
        [['x']] ++ clientHost :: [proxyHost] ∧
      resolveClientIp proxyHost (clientHost ++ ',' :: proxyHost) privateProxies = clientHost ∧
      resolveClientIp proxyHost ('x' :: ',' :: clientHost ++ ',' :: proxyHost) privateProxies =
        proxyHost := by
  refine ⟨?_, nearestUntrusted_clientHost, ?_, ?_, ?_, ?_⟩ <;> decide

end ZapTrace
