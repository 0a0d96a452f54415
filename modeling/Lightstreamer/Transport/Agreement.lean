import Lightstreamer.Transport.Endpoint

/-!
# The two transports on one address

Both transports connect to the host of the configured address, or of the control link. They agree on
the resource only where the address has no base path: the paths of the HTTP requests are fixed, and
the address is what the WebSocket's path is made from. `agree_iff`.
-/

namespace Lightstreamer.Transport

open Foundations Protocol Config

/-- The authority and the path of an address. -/
def addressParts (address : ServerAddress) : List Char × List Char :=
  let rest := ((Text.cut schemeSeparator (Text.trim address.text)).map Prod.snd).getD []
  (rest.takeWhile fun c => !isAuthorityTerminator c,
    rest.dropWhile fun c => !isAuthorityTerminator c)

/-- A control link and the address that it names: none, or a host with an optional port behind an
optional scheme. -/
inductive ControlLink : Option (List Char) → Option (List Char) → Prop
  | absent : ControlLink none none
  | same : ControlLink (some controlLinkSame) none
  | named {authority host : List Char} {port : Option ℕ} (hdenotes : Denotes authority host port)
      (hsame : authority ≠ controlLinkSame) : ControlLink (some authority) (some authority)
  | schemed {scheme authority host : List Char} {port : Option ℕ}
      (hdenotes : Denotes authority host port)
      (hscheme : ∀ c ∈ scheme, c ≠ ':' ∧ Text.isWhitespace c = false) :
      ControlLink (some (scheme ++ schemeSeparator ++ authority)) (some authority)

/-- What a URI of a WebSocket names. -/
structure Target where
  tls : Bool
  host : List Char
  port : ℕ
  path : List Char
  deriving DecidableEq

/-- The library splits a URI into authority and path, and uses the default port of the scheme. -/
def SplitsUri (library : List Char → Option Target) : Prop :=
  ∀ tls {authority host : List Char} {port : Option ℕ} (path : List Char),
    Denotes authority host port → path.head? = some '/' → '?' ∉ path → '#' ∉ path →
    ∀ target ∈ library (webSocketScheme tls ++ schemeSeparator ++ authority ++ path),
      target = ⟨tls, host, port.getD (defaultPort tls), path⟩

/-- The paths that are requested over HTTP. -/
def requestPaths : List String :=
  [CreateSession.path, BindSession.path, controlPath, "/lightstreamer/msg.txt",
    "/lightstreamer/heartbeat.txt"]

theorem path_mem_requestPaths (r : ControlRequest) : r.path ∈ requestPaths := by
  cases r <;> simp [ControlRequest.path, requestPaths]

/-- Both transports accept an address with a control link that names `named`, and connect to the
host, the port and the resource that these name. -/
def Agree (library : List Char → Option Target) (address : ServerAddress)
    (link named : Option (List Char)) : Prop :=
  ∃ uri endpoint, streamUri address.text link = .ok uri ∧ resolve address.text link = .ok endpoint ∧
    endpoint.tls = address.secure ∧
    (∃ port, Denotes (named.getD (addressParts address).1) endpoint.host port ∧
      endpoint.port = port.getD (defaultPort address.secure)) ∧
    (∀ target ∈ library uri, target = ⟨endpoint.tls, endpoint.host, endpoint.port,
      basePath (addressParts address).2 ++ streamPath⟩) ∧
    ∀ path ∈ requestPaths,
      basePath (addressParts address).2 ++ streamPath ++ ['/'] <+: path.toList

/-! ## The address in force -/

/-- The text of an address as both transports read it. -/
structure Parts (address : ServerAddress) where
  scheme : List Char
  authority : List Char
  path : List Char
  cut_text : Text.cut schemeSeparator (Text.trim address.text) = some (scheme, authority ++ path)
  scheme_tls : schemeTls (scheme.map Char.toLower) = some address.secure
  parts : addressParts address = (authority, path)
  authority_chars : ∀ c ∈ authority, isAuthorityTerminator c = false ∧ c ≠ '@'
  authority_denotes : (∃ host port, Denotes authority host port) ∨ Stray authority
  path_head : path = [] ∨ path.head? = some '/'
  path_chars : '?' ∉ path ∧ '#' ∉ path
  path_last : path.getLast? ≠ some '/'

theorem exists_parts {text : List Char} {address : ServerAddress}
    (h : ServerAddress.tryNew text = .ok address) : Nonempty (Parts address) := by
  obtain ⟨c, htext, hsecure⟩ := exists_canonical h
  obtain ⟨authority, htrim, hchars, hdenotes⟩ := exists_trim_text c
  have hcolon : ':' ∉ c.scheme := fun hin => ((scheme_chars c.scheme_mem).2 _ hin).1 rfl
  have hcut : Text.cut schemeSeparator (Text.trim address.text) =
      some (c.scheme, authority ++ c.path) := by
    rw [htext, htrim, List.append_assoc]
    exact Text.cut_append _ hcolon
  have hstop : ∀ x ∈ authority, (!isAuthorityTerminator x) = true := fun x hx => by
    rw [(hchars x hx).1]
    rfl
  have hpath : c.path.takeWhile (fun x => !isAuthorityTerminator x) = [] ∧
      c.path.dropWhile (fun x => !isAuthorityTerminator x) = c.path := by
    cases hp : c.path with
    | nil => exact ⟨rfl, rfl⟩
    | cons x xs =>
      have hx := c.path_head.resolve_left (by rw [hp]; exact List.cons_ne_nil _ _)
      rw [hp, List.head?_cons, Option.some.injEq] at hx
      subst hx
      exact ⟨rfl, rfl⟩
  have hparts : addressParts address = (authority, c.path) := by
    rw [addressParts, hcut]
    dsimp only [Option.map_some, Option.getD_some]
    rw [List.takeWhile_append_of_pos hstop, List.dropWhile_append_of_pos hstop, hpath.1, hpath.2,
      List.append_nil]
  have hquery : '?' ∉ c.path ∧ '#' ∉ c.path :=
    ⟨fun hin => (c.path_chars _ hin).2.1 rfl, fun hin => (c.path_chars _ hin).2.2 rfl⟩
  exact ⟨⟨c.scheme, authority, c.path, hcut, hsecure ▸ schemeTls_of_mem c.scheme_mem, hparts,
    hchars, hdenotes, c.path_head, hquery, c.path_last⟩⟩

/-- What a link names is an authority. -/
theorem ControlLink.denotes {link : Option (List Char)} {authority : List Char}
    (h : ControlLink link (some authority)) : ∃ host port, Denotes authority host port := by
  cases h with
  | named hdenotes => exact ⟨_, _, hdenotes⟩
  | schemed hdenotes => exact ⟨_, _, hdenotes⟩

theorem authorityChars_of_denotes {authority host : List Char} {port : Option ℕ}
    (h : Denotes authority host port) :
    ∀ c ∈ authority, isAuthorityTerminator c = false ∧ c ≠ '@' := fun c hc => by
  have := h.chars c hc
  simp only [isAuthorityChar, Bool.not_eq_true', Bool.or_eq_false_iff, decide_eq_false_iff_not]
    at this
  exact this.1

theorem linkAddress_of_controlLink {link named : Option (List Char)} (h : ControlLink link named) :
    linkAddress link = named := by
  have hspace : ∀ {authority host : List Char} {port : Option ℕ}, Denotes authority host port →
      ∀ c ∈ authority, ¬Text.isWhitespace c := fun h c hc => by
    have := h.chars c hc
    simp only [isAuthorityChar, Bool.not_eq_true', Bool.or_eq_false_iff] at this
    rw [this.2]
    exact Bool.false_ne_true
  cases h with
  | absent => rfl
  | same => decide
  | @named authority host port hdenotes hsame =>
    have hslash : '/' ∉ authority := fun hin =>
      absurd (authorityChars_of_denotes hdenotes _ hin).1 (by decide)
    have hcut : Text.cut schemeSeparator authority = none :=
      Text.cut_eq_none (x := '/') (by decide) hslash
    simp only [linkAddress, Text.trim_of_forall_not (hspace hdenotes), List.isEmpty_iff,
      hdenotes.ne_nil, hsame, or_self, if_false, hcut, Option.map_none, Option.getD_none]
  | @schemed scheme authority host port hdenotes hscheme =>
    have hcut : Text.cut schemeSeparator (scheme ++ schemeSeparator ++ authority) =
        some (scheme, authority) := by
      rw [List.append_assoc]
      exact Text.cut_append _ fun hin => (hscheme _ hin).1 rfl
    have htrim : Text.trim (scheme ++ schemeSeparator ++ authority) =
        scheme ++ schemeSeparator ++ authority := by
      refine Text.trim_of_forall_not (List.forall_mem_append.2
        ⟨List.forall_mem_append.2 ⟨fun c hc => ?_, schemeSeparator_chars⟩, hspace hdenotes⟩)
      rw [(hscheme c hc).2]
      exact Bool.false_ne_true
    have hlong : scheme ++ schemeSeparator ++ authority ≠ controlLinkSame := fun heq => by
      have := congrArg List.length heq
      simp [controlLinkSame] at this
      omega
    have hne : scheme ++ schemeSeparator ++ authority ≠ [] := by simp
    simp only [linkAddress, htrim, List.isEmpty_iff, hne, hlong, or_self, if_false, hcut,
      Option.map_some, Option.getD_some]

/-! ## What each transport makes of it -/

section

variable {address : ServerAddress} (parts : Parts address) {link : Option (List Char)}

/-- The HTTP transport connects to the authority in force, whatever path is behind it. -/
theorem resolve_eq {authority path : List Char}
    (hforce : (linkAddress link).getD (parts.authority ++ parts.path) = authority ++ path)
    (hchars : ∀ c ∈ authority, isAuthorityTerminator c = false ∧ c ≠ '@')
    (hne : authority ≠ []) (hpath : path = [] ∨ path.head? = some '/') :
    ∃ redacted, resolve address.text link =
      (splitHostPort authority address.secure redacted).map fun (host, port) =>
        ⟨address.secure, host, port, authority, redacted⟩ := by
  have hslash : authority.rdropWhile (· = '/') = authority := by
    have := @rdropWhile_slash authority [] hchars (by simp)
    rwa [List.append_nil] at this
  refine ⟨redact (parts.scheme ++ schemeSeparator ++ authority), ?_⟩
  simp only [resolve, parts.cut_text, parts.scheme_tls, hforce, bareAuthority_append hchars hpath,
    hslash, hne, if_false]

/-- The WebSocket transport appends its endpoint to the authority and the path in force. -/
theorem streamUri_eq {authority path : List Char}
    (hforce : (linkAddress link).getD (parts.authority ++ parts.path) = authority ++ path)
    (hchars : ∀ c ∈ authority, isAuthorityTerminator c = false ∧ c ≠ '@')
    (hne : authority ≠ []) (hlast : path.getLast? ≠ some '/') :
    streamUri address.text link = .ok (webSocketScheme address.secure ++ schemeSeparator ++
      authority ++ (basePath path ++ streamPath)) := by
  have hne' : authority ++ path ≠ [] := fun h => hne (List.append_eq_nil_iff.1 h).1
  simp only [streamUri, parts.cut_text, parts.scheme_tls, hforce, rdropWhile_slash hchars hlast,
    hne', if_false, streamPath_suffix_iff hchars, ← basePath_append]
  split_ifs <;> simp

end

/-- The HTTP paths have no base path before the endpoint. -/
theorem basePath_eq_nil {base : List Char}
    (h : ∀ path ∈ requestPaths, base ++ streamPath ++ ['/'] <+: path.toList) : base = [] := by
  have hbound : ∀ n < 34, (CreateSession.path.toList.take n ++ streamPath ++ ['/'] <+:
      CreateSession.path.toList) → CreateSession.path.toList.take n = [] := by
    decide
  have hcreate := h CreateSession.path List.mem_cons_self
  have hbase : base <+: CreateSession.path.toList := by
    rw [List.append_assoc] at hcreate
    exact (List.prefix_append _ _).trans hcreate
  have htake := List.prefix_iff_eq_take.1 hbase
  have hlength : base.length < 34 := by
    have := hbase.length_le
    have hlen : CreateSession.path.toList.length = 33 := by decide
    omega
  rw [htake]
  apply hbound _ hlength
  rw [← htake]
  exact hcreate

theorem prefix_requestPaths : ∀ path ∈ requestPaths, streamPath ++ ['/'] <+: path.toList := by
  decide

/-- What is in force has a path only if no link names an address. -/
theorem exists_force {address : ServerAddress} (parts : Parts address)
    {link named : Option (List Char)} (hlink : ControlLink link named) :
    ∃ path, (linkAddress link).getD (parts.authority ++ parts.path) =
        named.getD parts.authority ++ path ∧
      (∀ c ∈ named.getD parts.authority, isAuthorityTerminator c = false ∧ c ≠ '@') ∧
      ((∃ host port, Denotes (named.getD parts.authority) host port) ∨
        named = none ∧ Stray parts.authority) ∧
      (path = [] ∨ path.head? = some '/') ∧ path.getLast? ≠ some '/' ∧
      path = if named = none then parts.path else [] := by
  rw [linkAddress_of_controlLink hlink]
  cases named with
  | none =>
    exact ⟨parts.path, rfl, parts.authority_chars, parts.authority_denotes.imp_right (⟨rfl, ·⟩),
      parts.path_head, parts.path_last, rfl⟩
  | some authority =>
    obtain ⟨host, port, hdenotes⟩ := hlink.denotes
    exact ⟨[], (List.append_nil _).symm, authorityChars_of_denotes hdenotes,
      .inl ⟨host, port, hdenotes⟩, .inl rfl, by simp, rfl⟩

/-- **When the transports agree**: the address has no base path, and unless a control link names
another host nothing stands behind a bracketed host but a port. -/
theorem agree_iff {library : List Char → Option Target} (hlibrary : SplitsUri library)
    {text : List Char} {address : ServerAddress}
    (haddress : ServerAddress.tryNew text = .ok address) {link named : Option (List Char)}
    (hlink : ControlLink link named) :
    Agree library address link named ↔
      basePath (addressParts address).2 = [] ∧
        (named = none → ¬Stray (addressParts address).1) := by
  obtain ⟨parts⟩ := exists_parts haddress
  obtain ⟨path, hforce, hchars, hdenotes, hhead, hlast, hpath⟩ := exists_force parts hlink
  have hne : named.getD parts.authority ≠ [] := by
    rcases hdenotes with ⟨host, port, hdenotes⟩ | ⟨rfl, hstray⟩
    · exact hdenotes.ne_nil
    · exact hstray.ne_nil
  obtain ⟨redacted, hresolve⟩ := resolve_eq parts hforce hchars hne hhead
  have huri := streamUri_eq parts hforce hchars hne hlast
  rw [parts.parts]
  constructor
  · rintro ⟨uri, endpoint, -, hendpoint, -, -, -, hrequests⟩
    rw [parts.parts] at hrequests
    refine ⟨basePath_eq_nil hrequests, ?_⟩
    rintro rfl hstray
    obtain ⟨e, he⟩ := splitHostPort_of_stray hstray address.secure redacted
    rw [hresolve, Option.getD_none, he] at hendpoint
    cases hendpoint
  · rintro ⟨hbase, hstray⟩
    obtain ⟨host, port, hdenotes⟩ := hdenotes.resolve_right fun h => hstray h.1 h.2
    have hsplit := splitHostPort_of_denotes hdenotes address.secure redacted
    have hbase' : basePath path = [] := by
      rw [hpath]
      split_ifs
      · exact hbase
      · decide
    refine ⟨_, _, huri, by rw [hresolve, hsplit]; rfl, rfl, ⟨port, ?_, rfl⟩, ?_, ?_⟩
    · rw [parts.parts]
      exact hdenotes
    · rw [parts.parts, hbase, hbase']
      exact hlibrary address.secure streamPath hdenotes (by decide) (by decide) (by decide)
    · rw [parts.parts, hbase]
      exact prefix_requestPaths

/-- A library that splits a URI at the first `/`. -/
def splitUri (uri : List Char) : Option Target :=
  match Text.cut schemeSeparator uri with
  | none => none
  | some (scheme, rest) => match schemeTls scheme with
    | none => none
    | some tls =>
      match splitHostPort (rest.takeWhile fun c => !isAuthorityTerminator c) tls [] with
      | .ok (host, port) =>
        some ⟨tls, host, port, rest.dropWhile fun c => !isAuthorityTerminator c⟩
      | .error _ => none

theorem splitUri_splitsUri : SplitsUri splitUri := by
  intro tls authority host port path hdenotes hhead hquery hfragment target htarget
  have hstop : ∀ x ∈ authority, (!isAuthorityTerminator x) = true := fun x hx => by
    rw [(authorityChars_of_denotes hdenotes x hx).1]
    rfl
  obtain ⟨path, rfl⟩ : ∃ rest, path = '/' :: rest := by
    cases path with
    | nil => cases hhead
    | cons x xs =>
      cases hhead
      exact ⟨xs, rfl⟩
  have hcut : Text.cut schemeSeparator
      (webSocketScheme tls ++ schemeSeparator ++ authority ++ '/' :: path) =
        some (webSocketScheme tls, authority ++ '/' :: path) := by
    rw [List.append_assoc, List.append_assoc]
    refine Text.cut_append _ ?_
    cases tls <;> decide
  have htls : schemeTls (webSocketScheme tls) = some tls := by
    cases tls <;> decide
  have hslash : (!isAuthorityTerminator '/') = false := by decide
  have htake : (authority ++ '/' :: path).takeWhile (fun x => !isAuthorityTerminator x) =
      authority := by
    rw [List.takeWhile_append_of_pos hstop, List.takeWhile_cons_of_neg (by simp [hslash]),
      List.append_nil]
  have hdrop : (authority ++ '/' :: path).dropWhile (fun x => !isAuthorityTerminator x) =
      '/' :: path := by
    rw [List.dropWhile_append_of_pos hstop, List.dropWhile_cons_of_neg (by simp [hslash])]
  rw [splitUri, hcut] at htarget
  dsimp only at htarget
  rw [htls] at htarget
  dsimp only at htarget
  rw [htake, hdrop, splitHostPort_of_denotes hdenotes] at htarget
  exact (Option.some.inj htarget).symm

/-- A link to a bracketed host, with a weaker scheme than the address has. -/
theorem agree_iff_link : ∃ address, Agree splitUri address (some "http://[::1]:80".toList)
    (some "[::1]:80".toList) ∧ address.secure = true := by
  obtain ⟨address, haddress, heq⟩ : ∃ address,
      ServerAddress.tryNew "https://example.com/lightstreamer".toList = .ok address ∧
        address = ⟨"https://example.com/lightstreamer".toList, true⟩ := ⟨_, rfl, rfl⟩
  have hlink : ControlLink (some "http://[::1]:80".toList) (some "[::1]:80".toList) :=
    @ControlLink.schemed "http".toList _ _ _
      (@Denotes.literalPort "::1".toList "80".toList 80 (by decide)
        (by simp [isHostChar, isAuthorityTerminator, Text.isWhitespace]) (by decide))
      (by simp [Text.isWhitespace])
  refine ⟨address, (agree_iff splitUri_splitsUri haddress hlink).2 ⟨?_, fun h => by cases h⟩, ?_⟩
  · rw [heq]
    decide
  · rw [heq]

/-- Over HTTP the base path of an address is not requested. -/
theorem basePath_dropped : ∃ address,
    ServerAddress.tryNew "https://example.com/push".toList = .ok address ∧
      streamUri address.text none = .ok "wss://example.com/push/lightstreamer".toList ∧
      SplitsUri splitUri ∧ ¬Agree splitUri address none none := by
  refine ⟨⟨"https://example.com/push".toList, true⟩, rfl, rfl, splitUri_splitsUri, ?_⟩
  rintro ⟨uri, endpoint, -, -, -, -, -, hrequests⟩
  exact absurd (hrequests CreateSession.path List.mem_cons_self) (by decide)

end Lightstreamer.Transport
