import Mathlib

/-!
# The source address of a forwarded request

A gateway appends the address of its direct peer to the first `X-Forwarded-For`
line and replaces the others; a gateway behind it reads the lines from the right
and skips the addresses it trusts.  What the client wrote stands to the left of
the client's own address, so it is never reached.
-/

namespace CyfsGateway.Gateway

open List

/-- The matchers of the trusted upstreams, each by the addresses it matches. -/
def trusts {Ip : Type} (trusted : List (Ip → Bool)) (ip : Ip) : Bool :=
  trusted.any fun trust => trust ip

abbrev HeaderText := List UInt8

def comma : UInt8 := 44

def isBlank (byte : UInt8) : Bool := byte = 32 || byte = 9

def isVisible (byte : UInt8) : Bool := 32 ≤ byte && byte < 127 || byte = 9

/-- `HeaderValue::to_str`; `from_str` takes at least these texts. -/
def toStr (value : HeaderText) : Option HeaderText :=
  if value.all isVisible then some value else none

def trim (text : HeaderText) : HeaderText := (text.dropWhile isBlank).rdropWhile isBlank

def entries (line : HeaderText) : List HeaderText :=
  ((line.splitOn comma).map trim).filter fun entry => !entry.isEmpty

/-- A text without blanks and commas that a header can hold. -/
structure Clean (text : HeaderText) : Prop where
  nonempty : text ≠ []
  visible : text.all isVisible
  unblank : ∀ byte ∈ text, ¬isBlank byte
  whole : comma ∉ text

/-- The texts of addresses and ports.  An IP address has a clean text of its own that
is no text of a socket address. -/
structure AddressTexts (Ip : Type) where
  showIp : Ip → HeaderText
  showPort : UInt16 → HeaderText
  showSocket : Ip → UInt16 → HeaderText
  parseIp : HeaderText → Option Ip
  parsePort : HeaderText → Option UInt16
  parseSocket : HeaderText → Option (Ip × UInt16)
  clean_showIp : ∀ ip, Clean (showIp ip)
  parseIp_showIp : ∀ ip, parseIp (showIp ip) = some ip
  parseSocket_showIp : ∀ ip, parseSocket (showIp ip) = none

inductive HeaderName
  | xForwardedFor
  | xRealIp
  | xRealPort
  deriving DecidableEq

/-- The lines under each name; `insert` leaves one line. -/
abbrev HeaderMap := HeaderName → List HeaderText

def insertIfAbsent (name : HeaderName) (value : HeaderText) (headers : HeaderMap) : HeaderMap :=
  if headers name = [] then Function.update headers name [value] else headers

structure StreamInfo where
  srcAddr : Option HeaderText
  connSrcAddr : Option HeaderText
  realSrcAddr : Option HeaderText

structure AddrGroup where
  addr : Option HeaderText
  ip : Option HeaderText
  port : Option HeaderText

structure RequestSourceInfo where
  source : AddrGroup
  connSource : AddrGroup
  realSource : AddrGroup

namespace AddressTexts

variable {Ip : Type} (texts : AddressTexts Ip)

def addrGroupFromStr (addr : HeaderText) : AddrGroup :=
  match texts.parseSocket addr with
  | some (ip, port) => ⟨some addr, some (texts.showIp ip), some (texts.showPort port)⟩
  | none =>
    if (texts.parseIp addr).isSome then ⟨some addr, some addr, none⟩
    else ⟨some addr, none, none⟩

def fromStreamInfo (info : StreamInfo) : RequestSourceInfo :=
  let group := fun (addr : Option HeaderText) =>
    (addr.map texts.addrGroupFromStr).getD ⟨none, none, none⟩
  ⟨group info.srcAddr, group info.connSrcAddr, group info.realSrcAddr⟩

def setRealSource (sources : RequestSourceInfo) (addr : HeaderText) : RequestSourceInfo :=
  { sources with
    realSource := texts.addrGroupFromStr addr
    source := texts.addrGroupFromStr addr }

def injectForwardHeaders (headers : HeaderMap) (info : StreamInfo) : HeaderMap :=
  match info.srcAddr.bind texts.parseSocket with
  | none => headers
  | some (ip, port) =>
    let marked := insertIfAbsent .xRealPort (texts.showPort port)
      (insertIfAbsent .xRealIp (texts.showIp ip) headers)
    let xff := match (marked .xForwardedFor).head?.bind toStr with
      | some existing => existing ++ comma :: 32 :: texts.showIp ip
      | none => texts.showIp ip
    Function.update marked .xForwardedFor [xff]

def parseForwardedEntry (entry : HeaderText) : Option (HeaderText × Ip) :=
  let entry := trim entry
  if entry = [] then none
  else
    match texts.parseSocket entry with
    | some (ip, _) => some (entry, ip)
    | none => (texts.parseIp entry).map fun ip => (entry, ip)

def lastUntrusted (trusted : List (Ip → Bool)) :
    Option HeaderText → List HeaderText → Option HeaderText
  | candidate, [] => candidate
  | _, entry :: rest =>
    match texts.parseForwardedEntry entry with
    | none => none
    | some (addr, ip) =>
      if trusts trusted ip then lastUntrusted trusted (some addr) rest else some addr

def realIpSource (headers : HeaderMap) : Option HeaderText := do
  let realIp := trim (← (← (headers .xRealIp).head?.map toStr))
  match texts.parseSocket realIp with
  | some (ip, port) => some (texts.showSocket ip port)
  | none =>
    let ip ← texts.parseIp realIp
    match ((headers .xRealPort).head?.bind toStr).bind fun port => texts.parsePort (trim port) with
    | some port => some (texts.showSocket ip port)
    | none => some (texts.showIp ip)

def resolveTrustedForwardedSource (headers : HeaderMap)
    (trusted : List (Ip → Bool)) : Option HeaderText :=
  let lines := (headers .xForwardedFor).filterMap toStr
  (texts.lastUntrusted trusted none (lines.flatMap entries).reverse).or (texts.realIpSource headers)

def resolveRequestSources (trusted : List (Ip → Bool)) (info : StreamInfo)
    (headers : HeaderMap) : RequestSourceInfo :=
  let sources := texts.fromStreamInfo info
  if trusted = [] ∨ sources.realSource.addr.isSome then sources
  else
    match (sources.connSource.ip.or sources.source.ip).bind texts.parseIp with
    | none => sources
    | some ip =>
      if trusts trusted ip then
        match texts.resolveTrustedForwardedSource headers trusted with
        | some real => texts.setRealSource sources real
        | none => sources
      else sources

end AddressTexts

/-! ## What one hop writes -/

variable {Ip : Type} {texts : AddressTexts Ip} {ip : Ip} {info : StreamInfo} {headers : HeaderMap}
  {line text : HeaderText} {trusted : List (Ip → Bool)}

theorem Clean.trim_eq (hclean : Clean text) : trim text = text := by
  have hstart : text.dropWhile isBlank = text :=
    dropWhile_eq_self_iff.mpr fun _ => hclean.unblank _ (getElem_mem _)
  rw [trim, hstart, rdropWhile_eq_self_iff]
  exact fun hne => hclean.unblank _ (getLast_mem hne)

theorem Clean.entries_eq (hclean : Clean text) : entries text = [text] := by
  simp [entries, splitOn_eq_singleton hclean.whole, hclean.trim_eq, hclean.nonempty]

theorem Clean.entries_append (hclean : Clean text) :
    entries (line ++ comma :: 32 :: text) = entries line ++ [text] := by
  have hwhole : comma ∉ 32 :: text := not_mem_cons_of_ne_of_not_mem (by decide) hclean.whole
  have htrim : trim (32 :: text) = text := by
    exact hclean.trim_eq
  simp [entries, splitOn_append_cons_self, splitOn_eq_singleton hwhole, htrim, hclean.nonempty]

theorem Clean.toStr_append (hclean : Clean text) (hline : toStr line = some line) :
    toStr (line ++ comma :: 32 :: text) = some (line ++ comma :: 32 :: text) := by
  simp only [toStr, Option.ite_none_right_eq_some, and_true] at hline ⊢
  rw [all_append, hline, all_cons, all_cons, hclean.visible]
  decide

/-- The connection of a peer, with no stronger mechanism that restored another source:
neither a PROXY header nor the stack below has put another address before that of the
socket. -/
structure ComesFrom (texts : AddressTexts Ip) (ip : Ip) (info : StreamInfo) : Prop where
  source : ∃ addr port, info.srcAddr = some addr ∧ texts.parseSocket addr = some (ip, port)
  conn : info.connSrcAddr = none ∨ info.connSrcAddr = info.srcAddr
  real : info.realSrcAddr = none

/-- One line is left, and it ends with these addresses. -/
def Ends (texts : AddressTexts Ip) (headers : HeaderMap) (hops : List Ip) : Prop :=
  ∃ line front, headers .xForwardedFor = [line] ∧ toStr line = some line ∧
    entries line = front ++ hops.map texts.showIp

theorem xForwardedFor_injectForwardHeaders (hfrom : ComesFrom texts ip info) :
    texts.injectForwardHeaders headers info .xForwardedFor =
      [match (headers .xForwardedFor).head?.bind toStr with
        | some existing => existing ++ comma :: 32 :: texts.showIp ip
        | none => texts.showIp ip] := by
  obtain ⟨addr, port, haddr, hparse⟩ := hfrom.source
  have hkept {name value} {headers : HeaderMap} (hname : name ≠ .xForwardedFor) :
      insertIfAbsent name value headers .xForwardedFor = headers .xForwardedFor := by
    rw [insertIfAbsent]
    split
    · exact Function.update_of_ne hname.symm _ _
    · rfl
  simp only [AddressTexts.injectForwardHeaders, haddr, Option.bind_some, hparse,
    Function.update_self]
  rw [hkept (by decide), hkept (by decide)]

theorem ends_first (hfrom : ComesFrom texts ip info) :
    Ends texts (texts.injectForwardHeaders headers info) [ip] := by
  have hclean := texts.clean_showIp ip
  rw [Ends, xForwardedFor_injectForwardHeaders hfrom]
  cases hfirst : (headers .xForwardedFor).head?.bind toStr with
  | none =>
    refine ⟨_, [], rfl, ?_, hclean.entries_eq⟩
    rw [toStr, if_pos hclean.visible]
  | some existing =>
    obtain ⟨value, -, hvalue⟩ := Option.bind_eq_some_iff.mp hfirst
    have hreadable : toStr existing = some existing := by
      rw [toStr, Option.ite_none_right_eq_some] at hvalue
      rw [← Option.some.inj hvalue.2, toStr, if_pos hvalue.1]
    exact ⟨_, entries existing, rfl, hclean.toStr_append hreadable, hclean.entries_append⟩

variable {hops : List Ip}

theorem Ends.next (hends : Ends texts headers hops)
    (hfrom : ComesFrom texts ip info) :
    Ends texts (texts.injectForwardHeaders headers info) (hops ++ [ip]) := by
  obtain ⟨line, front, hsingle, hreadable, hents⟩ := hends
  have hclean := texts.clean_showIp ip
  rw [Ends, xForwardedFor_injectForwardHeaders hfrom, hsingle, head?_cons, Option.bind_some,
    hreadable]
  refine ⟨_, front, rfl, hclean.toStr_append hreadable, ?_⟩
  rw [hclean.entries_append, hents, map_append, append_assoc]
  rfl

/-! ## What the last hop reads -/

theorem parseForwardedEntry_showIp :
    texts.parseForwardedEntry (texts.showIp ip) = some (texts.showIp ip, ip) := by
  have hclean := texts.clean_showIp ip
  simp [AddressTexts.parseForwardedEntry, hclean.trim_eq, hclean.nonempty,
    texts.parseSocket_showIp, texts.parseIp_showIp]

theorem lastUntrusted_eq (hhops : ∀ hop ∈ hops, trusts trusted hop)
    (hip : trusts trusted ip = false) (candidate : Option HeaderText) (rest : List HeaderText) :
    texts.lastUntrusted trusted candidate (hops.map texts.showIp ++ texts.showIp ip :: rest) =
      some (texts.showIp ip) := by
  induction hops generalizing candidate with
  | nil =>
    rw [map_nil, nil_append, AddressTexts.lastUntrusted, parseForwardedEntry_showIp]
    simp [hip]
  | cons hop hops ih =>
    rw [forall_mem_cons] at hhops
    rw [map_cons, cons_append, AddressTexts.lastUntrusted, parseForwardedEntry_showIp]
    simp only [hhops.1, if_true]
    exact ih hhops.2 _

theorem Ends.resolves (hends : Ends texts headers (ip :: hops))
    (hhops : ∀ hop ∈ hops, trusts trusted hop) (hip : trusts trusted ip = false) :
    texts.resolveTrustedForwardedSource headers trusted = some (texts.showIp ip) := by
  obtain ⟨line, front, hsingle, hreadable, hents⟩ := hends
  have hreverse : (entries line).reverse =
      hops.reverse.map texts.showIp ++ texts.showIp ip :: front.reverse := by
    simp [hents, map_reverse]
  rw [AddressTexts.resolveTrustedForwardedSource, hsingle]
  simp only [filterMap_cons, hreadable, filterMap_nil, flatMap_cons, flatMap_nil, append_nil,
    hreverse]
  rw [lastUntrusted_eq (fun hop hhop => hhops hop (mem_reverse.mp hhop)) hip, Option.some_or]

theorem ComesFrom.sources (hfrom : ComesFrom texts ip info) :
    (texts.fromStreamInfo info).source.ip = some (texts.showIp ip) ∧
      ((texts.fromStreamInfo info).connSource.ip.or (texts.fromStreamInfo info).source.ip) =
        some (texts.showIp ip) ∧ (texts.fromStreamInfo info).realSource.addr = none := by
  obtain ⟨addr, port, haddr, hparse⟩ := hfrom.source
  rcases hfrom.conn with hconn | hconn <;>
    simp [AddressTexts.fromStreamInfo, haddr, hconn, hfrom.real,
      AddressTexts.addrGroupFromStr, hparse]

theorem ComesFrom.direct (hfrom : ComesFrom texts ip info) (hip : trusts trusted ip = false) :
    (texts.resolveRequestSources trusted info headers).source.ip = some (texts.showIp ip) := by
  obtain ⟨hsrc, hdirect, -⟩ := hfrom.sources
  rw [AddressTexts.resolveRequestSources]
  split
  · exact hsrc
  · rw [hdirect, Option.bind_some, texts.parseIp_showIp]
    simp [hip, hsrc]

theorem ComesFrom.restored (hfrom : ComesFrom texts ip info) (hip : trusts trusted ip)
    (hreal : texts.resolveTrustedForwardedSource headers trusted = some (texts.showIp client)) :
    (texts.resolveRequestSources trusted info headers).source.ip = some (texts.showIp client) := by
  obtain ⟨-, hdirect, hnone⟩ := hfrom.sources
  have hsome : trusted ≠ [] := by
    rintro rfl
    cases hip
  rw [AddressTexts.resolveRequestSources]
  rw [if_neg (by simp [hsome, hnone]), hdirect, Option.bind_some, texts.parseIp_showIp]
  simp [hip, hreal, AddressTexts.setRealSource, AddressTexts.addrGroupFromStr,
    texts.parseSocket_showIp, texts.parseIp_showIp]

/-- What the last gateway of a chain receives: `info` is the connection of the first
one and `hops` are those of the gateways behind it. -/
def received (texts : AddressTexts Ip) (headers : HeaderMap) (info : StreamInfo) :
    List StreamInfo → HeaderMap × StreamInfo
  | [] => (headers, info)
  | next :: rest => received texts (texts.injectForwardHeaders headers info) next rest

theorem received_resolves {hops} (hclient : trusts trusted client = false)
    (hpassed : ∀ hop ∈ passed, trusts trusted hop) (hends : Ends texts headers (client :: passed))
    (hfrom : ComesFrom texts ip info) (hip : trusts trusted ip)
    (hhops : ∀ hop ∈ hops, ∃ ip, trusts trusted ip ∧ ComesFrom texts ip hop) :
    (texts.resolveRequestSources trusted (received texts headers info hops).2
      (received texts headers info hops).1).source.ip = some (texts.showIp client) := by
  induction hops generalizing headers info ip passed with
  | nil => exact hfrom.restored hip (hends.resolves hpassed hclient)
  | cons next rest ih =>
    rw [forall_mem_cons] at hhops
    obtain ⟨⟨nextIp, htrusted, hnext⟩, hrest⟩ := hhops
    refine ih ?_ (hends.next hfrom) hnext htrusted hrest
    intro hop hhop
    rcases mem_append.mp hhop with hold | hnew
    · exact hpassed hop hold
    · rwa [mem_singleton.mp hnew]

/-- In every chain of gateways that trust exactly each other, the last one takes the
client for the source, whatever headers the client sent; a gateway that trusts nobody
takes its direct peer. -/
theorem source_is_client {gateways : Set Ip} {client : Ip} {hops : List StreamInfo}
    (htrusted : ∀ ip, trusts trusted ip ↔ ip ∈ gateways) (hclient : client ∉ gateways)
    (hfirst : ComesFrom texts client info)
    (hhops : ∀ hop ∈ hops, ∃ ip ∈ gateways, ComesFrom texts ip hop) (headers : HeaderMap) :
    (texts.resolveRequestSources trusted (received texts headers info hops).2
        (received texts headers info hops).1).source.ip = some (texts.showIp client) ∧
      ∀ ip peer received, ComesFrom texts ip peer →
        (texts.resolveRequestSources [] peer received).source.ip = some (texts.showIp ip) := by
  have huntrusted : trusts trusted client = false := by
    rw [← Bool.not_eq_true, htrusted]
    exact hclient
  refine ⟨?_, fun ip peer received hpeer => hpeer.direct rfl⟩
  cases hops with
  | nil => exact hfirst.direct huntrusted
  | cons next rest =>
    simp only [← htrusted] at hhops
    rw [forall_mem_cons] at hhops
    obtain ⟨⟨nextIp, hnextIp, hnext⟩, hrest⟩ := hhops
    apply received_resolves huntrusted _ (ends_first hfirst) hnext hnextIp hrest
    exact fun hop hhop => absurd hhop not_mem_nil

section Ipv4

structure Ipv4Addr where
  octets : UInt8 × UInt8 × UInt8 × UInt8
  deriving DecidableEq

def showDecimal (value : Nat) : HeaderText :=
  (Nat.toDigits 10 value).map fun digit => UInt8.ofNat digit.toNat

def parseDecimal (limit : Nat) (text : HeaderText) : Option Nat :=
  let value := text.foldl (fun value byte => value * 10 + (byte.toNat - 48)) 0
  if text ≠ [] ∧ (∀ byte ∈ text, 48 ≤ byte ∧ byte ≤ 57) ∧ value < limit then some value else none

/-- A number of an address has no zero in front. -/
def parseOctet (text : HeaderText) : Option UInt8 :=
  if text.head? = some 48 ∧ text ≠ [48] then none
  else (parseDecimal 256 text).map UInt8.ofNat

namespace Ipv4Addr

def toText (ip : Ipv4Addr) : HeaderText :=
  let (a, b, c, d) := ip.octets
  showDecimal a.toNat ++ 46 :: (showDecimal b.toNat ++ 46 :: (showDecimal c.toNat ++
    46 :: showDecimal d.toNat))

def fromText (text : HeaderText) : Option Ipv4Addr :=
  match (text.splitOn 46).mapM parseOctet with
  | some [a, b, c, d] => some ⟨a, b, c, d⟩
  | _ => none

end Ipv4Addr

section Decimal

variable {value : Nat}

theorem toNat_of_digit {digit : Char} (hdigit : digit ∈ Nat.toDigits 10 value) :
    (UInt8.ofNat digit.toNat).toNat = digit.toNat ∧ 48 ≤ digit.toNat ∧ digit.toNat ≤ 57 := by
  have hrange : 48 ≤ digit.toNat ∧ digit.toNat ≤ 57 :=
    Char.isDigit_iff_toNat.mp (Nat.isDigit_of_mem_toDigits (by decide) (by decide) hdigit)
  refine ⟨?_, hrange⟩
  rw [UInt8.toNat_ofNat', Nat.mod_eq_of_lt (by omega)]

theorem mem_showDecimal {byte : UInt8} (hbyte : byte ∈ showDecimal value) :
    48 ≤ byte ∧ byte ≤ 57 := by
  obtain ⟨digit, hdigit, rfl⟩ := mem_map.mp hbyte
  obtain ⟨heq, hlow, hhigh⟩ := toNat_of_digit hdigit
  rw [UInt8.le_iff_toNat_le, UInt8.le_iff_toNat_le, heq]
  exact ⟨hlow, hhigh⟩

theorem foldl_showDecimal (value : Nat) :
    (showDecimal value).foldl (fun value byte => value * 10 + (byte.toNat - 48)) 0 = value := by
  conv_rhs => rw [← @Nat.ofDigitChars_ten_toDigits value, Nat.ofDigitChars_eq_foldl]
  rw [showDecimal, foldl_map]
  refine foldl_ext _ _ _ fun sofar digit hdigit => ?_
  rw [(toNat_of_digit hdigit).1, Nat.mul_comm]
  rfl

theorem showDecimal_ne_nil : showDecimal value ≠ [] :=
  mt map_eq_nil_iff.mp Nat.toDigits_ne_nil

/-- Only the number zero is written with a zero in front. -/
theorem showDecimal_of_head? (hhead : (showDecimal value).head? = some 48) :
    showDecimal value = [48] := by
  induction value using Nat.strongRecOn with
  | ind value ih =>
    rw [showDecimal, Nat.toDigits_eq_if (by decide)] at hhead ⊢
    split at hhead
    · next hlt =>
      rw [if_pos hlt]
      simpa using hhead
    · next hge =>
      rw [map_append, ← showDecimal, head?_append_of_ne_nil _ showDecimal_ne_nil] at hhead
      have hrest := foldl_showDecimal (value / 10)
      rw [ih (value / 10) (by omega) hhead] at hrest
      have hzero : 0 = value / 10 := hrest
      omega

theorem parseOctet_showDecimal (octet : UInt8) :
    parseOctet (showDecimal octet.toNat) = some octet := by
  have hparse : parseDecimal 256 (showDecimal octet.toNat) = some octet.toNat := by
    simp only [parseDecimal, foldl_showDecimal]
    exact if_pos ⟨showDecimal_ne_nil, fun _ => mem_showDecimal, octet.toNat_lt⟩
  rw [parseOctet, if_neg fun hzero => hzero.2 (showDecimal_of_head? hzero.1), hparse,
    Option.map_some, UInt8.ofNat_toNat]

end Decimal

theorem Ipv4Addr.mem_toText {ip : Ipv4Addr} {byte : UInt8} (hbyte : byte ∈ ip.toText) :
    byte = 46 ∨ 48 ≤ byte ∧ byte ≤ 57 := by
  simp only [toText, mem_append, mem_cons] at hbyte
  rcases hbyte with hbyte | rfl | hbyte | rfl | hbyte | rfl | hbyte
  all_goals first
    | exact .inl rfl
    | exact .inr (mem_showDecimal hbyte)

theorem plain_of_digit (byte : UInt8) (hbyte : byte = 46 ∨ 48 ≤ byte ∧ byte ≤ 57) :
    isVisible byte = true ∧ isBlank byte = false ∧ comma ≠ byte ∧ 58 ≠ byte := by
  revert byte
  decide +kernel

theorem Ipv4Addr.clean_toText (ip : Ipv4Addr) : Clean ip.toText where
  nonempty := by simp [toText]
  visible := all_eq_true.mpr fun byte hbyte => (plain_of_digit byte (mem_toText hbyte)).1
  unblank byte hbyte := by simp [plain_of_digit byte (mem_toText hbyte)]
  whole hcomma := (plain_of_digit _ (mem_toText hcomma)).2.2.1 rfl

theorem Ipv4Addr.fromText_toText (ip : Ipv4Addr) : fromText ip.toText = some ip := by
  have hwhole (octet : UInt8) : 46 ∉ showDecimal octet.toNat := fun hdot =>
    absurd (mem_showDecimal hdot).1 (by decide)
  simp [fromText, toText, splitOn_append_cons_self, splitOn_eq_singleton (hwhole _),
    parseOctet_showDecimal]

/-- The texts of IPv4 addresses and of their socket addresses, as the standard library
reads and writes them. -/
def ipv4Texts : AddressTexts Ipv4Addr where
  showIp := Ipv4Addr.toText
  showPort port := showDecimal port.toNat
  showSocket ip port := ip.toText ++ 58 :: showDecimal port.toNat
  parseIp := Ipv4Addr.fromText
  parsePort text := (parseDecimal 65536 (if text.head? = some 43 then text.tail else text)).map
    UInt16.ofNat
  parseSocket text :=
    match text.splitOn 58 with
    | [ip, port] => do
        let ip ← Ipv4Addr.fromText ip
        let port ← parseDecimal 65536 port
        pure (ip, UInt16.ofNat port)
    | _ => none
  clean_showIp := Ipv4Addr.clean_toText
  parseIp_showIp := Ipv4Addr.fromText_toText
  parseSocket_showIp ip := by
    have hwhole : 58 ∉ ip.toText := fun hcolon =>
      (plain_of_digit _ (Ipv4Addr.mem_toText hcolon)).2.2.2 rfl
    rw [splitOn_eq_singleton hwhole]

end Ipv4

/-- The client 203.0.113.7 forges every header; the gateways have the address 10.0.0.2. -/
theorem source_is_client_forged :
    let forged : HeaderMap := fun _ =>
      ["10.0.0.2".toUTF8.toList, [200], "10.0.0.2, 10.0.0.2".toUTF8.toList]
    let client : StreamInfo := ⟨some "203.0.113.7:4711".toUTF8.toList, none, none⟩
    let gateway : StreamInfo := ⟨some "10.0.0.2:80".toUTF8.toList, none, none⟩
    let trusted : List (Ipv4Addr → Bool) := [fun ip => ip = ⟨10, 0, 0, 2⟩]
    let last := received ipv4Texts forged client [gateway, gateway]
    (ipv4Texts.resolveRequestSources trusted last.2 last.1).source.ip =
      some "203.0.113.7".toUTF8.toList := by
  intro forged client gateway trusted last
  have hclient : ComesFrom ipv4Texts ⟨203, 0, 113, 7⟩ client :=
    ⟨⟨_, 4711, rfl, by decide +kernel⟩, .inl rfl, rfl⟩
  have hgateway : ComesFrom ipv4Texts ⟨10, 0, 0, 2⟩ gateway :=
    ⟨⟨_, 80, rfl, by decide +kernel⟩, .inl rfl, rfl⟩
  have htrusted : ∀ ip, trusts trusted ip ↔ ip ∈ ({⟨10, 0, 0, 2⟩} : Set Ipv4Addr) := by
    simp [trusts, trusted]
  have hhops : ∀ hop ∈ [gateway, gateway], ∃ ip ∈ ({⟨10, 0, 0, 2⟩} : Set Ipv4Addr),
      ComesFrom ipv4Texts ip hop := by simp [hgateway]
  have hsource := (source_is_client htrusted (by decide) hclient hhops forged).1
  exact hsource.trans (by decide +kernel)

end CyfsGateway.Gateway
