import Lightstreamer.Config.Address
import Lightstreamer.Protocol.Request
import Lightstreamer.Transport.Basic

/-!
# Where a transport connects

`resolve` is the endpoint of the HTTP transport, `streamUri` the URI of the WebSocket transport.
Both start from the configured address and from the control link, if the server gave one.
-/

namespace Lightstreamer.Transport

open Foundations Protocol Config

/-- The control link that means the configured address. -/
def controlLinkSame : List Char := ['*']

/-- The path of the WebSocket. -/
def streamPath : List Char := '/' :: "lightstreamer".toList

/-- The default port of a scheme. -/
def defaultPort (tls : Bool) : ℕ := if tls then 443 else 80

/-- Remove the userinfo of a URL. -/
def redact (uri : List Char) : List Char :=
  match Text.cut schemeSeparator uri with
  | none => uri
  | some (scheme, rest) =>
    let authority := rest.takeWhile (· ≠ '/')
    match Text.cutLast '@' authority with
    | some (_, host) =>
      scheme ++ schemeSeparator ++ "***@".toList ++ host ++ rest.dropWhile (· ≠ '/')
    | none => uri

/-- The error for an address that a transport cannot use. -/
def connectError (target : List Char) (reason : String) : TransportError :=
  .connect (String.ofList target) reason

/-- The address that a control link in force names, without the scheme it may carry. -/
def linkAddress : Option (List Char) → Option (List Char)
  | none => none
  | some link =>
    let link := Text.trim link
    if link.isEmpty ∨ link = controlLinkSame then none
    else some (((Text.cut schemeSeparator link).map Prod.snd).getD link)

/-! ## HTTP -/

/-- What an HTTP connection is opened to. -/
structure Endpoint where
  tls : Bool
  host : List Char
  port : ℕ
  authority : List Char
  redacted : List Char
  deriving DecidableEq

/-- An authority without the userinfo before it and the path behind it. -/
def bareAuthority (authority : List Char) : List Char :=
  let host := ((Text.cut ['/'] authority).map Prod.fst).getD authority
  ((Text.cutLast '@' host).map Prod.snd).getD host

/-- The port that a text states. -/
def statedPort (port redacted : List Char) : Except TransportError ℕ :=
  match parseUnsigned u16Max port with
  | some n => .ok n
  | none => .error (connectError redacted s!"invalid port `{String.ofList port}`")

/-- Split an authority into host and port, with the default port of the scheme. -/
def splitHostPort (authority : List Char) (tls : Bool) (redacted : List Char) :
    Except TransportError (List Char × ℕ) :=
  match authority with
  | '[' :: rest => match Text.cut [']'] rest with
    | none => .error (connectError redacted "malformed IPv6 host: missing `]`")
    | some (host, ':' :: port) => (statedPort port redacted).map (host, ·)
    | some (host, []) => .ok (host, defaultPort tls)
    | some (_, _) => .error (connectError redacted "malformed IPv6 authority")
  | authority => match Text.cutLast ':' authority with
    | some (host, port) =>
      if host.isEmpty then .ok (authority, defaultPort tls)
      else (statedPort port redacted).map (host, ·)
    | none => .ok (authority, defaultPort tls)

/-- Whether a scheme that a transport speaks selects TLS. -/
def schemeTls (scheme : List Char) : Option Bool :=
  if scheme = "http".toList ∨ scheme = "ws".toList then some false
  else if scheme = "https".toList ∨ scheme = "wss".toList then some true
  else none

/-- The endpoint that a connection should target. -/
def resolve (address : List Char) (controlLink : Option (List Char)) :
    Except TransportError Endpoint :=
  let address := Text.trim address
  let redacted := redact address
  match Text.cut schemeSeparator address with
  | none => .error (connectError redacted
      "server address must start with http://, https://, ws:// or wss://")
  | some (scheme, rest) =>
    match schemeTls (scheme.map Char.toLower) with
    | none => .error (connectError redacted (s!"unsupported scheme " ++
        s!"`{String.ofList (scheme.map Char.toLower)}`; expected http, https, ws or wss"))
    | some tls =>
      let authority :=
        (bareAuthority ((linkAddress controlLink).getD rest)).rdropWhile (· = '/')
      if authority = [] then .error (connectError redacted "server address has no host")
      else
        let redactedAuthority := redact (scheme ++ schemeSeparator ++ authority)
        (splitHostPort authority tls redactedAuthority).map fun (host, port) =>
          ⟨tls, host, port, authority, redactedAuthority⟩

/-! ## WebSocket -/

/-- The scheme of a WebSocket. -/
def webSocketScheme (tls : Bool) : List Char := if tls then "wss".toList else "ws".toList

/-- The URI to connect to. -/
def streamUri (address : List Char) (controlLink : Option (List Char)) :
    Except TransportError (List Char) :=
  let address := Text.trim address
  let redacted := redact address
  match Text.cut schemeSeparator address with
  | none => .error (connectError redacted
      "server address must start with ws://, wss://, http:// or https://")
  | some (scheme, rest) =>
    match schemeTls (scheme.map Char.toLower) with
    | none => .error (connectError redacted (s!"unsupported scheme " ++
        s!"`{String.ofList (scheme.map Char.toLower)}`; expected ws, wss, http or https"))
    | some tls =>
      let authority := ((linkAddress controlLink).getD rest).rdropWhile (· = '/')
      if authority = [] then .error (connectError redacted "server address has no host")
      -- an address that already names the endpoint is left as it is
      else if streamPath <:+ authority then
        .ok (webSocketScheme tls ++ schemeSeparator ++ authority)
      else .ok (webSocketScheme tls ++ schemeSeparator ++ authority ++ streamPath)

/-! ## The two readings of an address -/

/-- What stands before the endpoint in a path. -/
def basePath (path : List Char) : List Char :=
  if streamPath <:+ path then path.take (path.length - streamPath.length) else path

theorem schemeTls_of_mem {secure : Bool} {scheme : List Char}
    (h : scheme ∈ if secure then secureSchemes else insecureSchemes) :
    schemeTls (scheme.map Char.toLower) = some secure := by
  revert scheme
  cases secure <;> decide

theorem scheme_chars {secure : Bool} {scheme : List Char}
    (h : scheme ∈ if secure then secureSchemes else insecureSchemes) :
    scheme ≠ [] ∧ ∀ c ∈ scheme, c ≠ ':' ∧ Text.isWhitespace c = false := by
  cases secure
  · simp only [Bool.false_eq_true, if_false, insecureSchemes, List.mem_cons, List.not_mem_nil,
      or_false] at h
    rcases h with rfl | rfl <;> simp [Text.isWhitespace]
  · simp only [if_true, secureSchemes, List.mem_cons, List.not_mem_nil, or_false] at h
    rcases h with rfl | rfl <;> simp [Text.isWhitespace]

theorem schemeSeparator_chars : ∀ c ∈ schemeSeparator, ¬Text.isWhitespace c := by
  simp [schemeSeparator, Text.isWhitespace]

/-- An authority, trimmed if nothing stands behind it. -/
theorem exists_trim_text (c : Canonical) :
    ∃ authority, Text.trim c.text = c.scheme ++ schemeSeparator ++ (authority ++ c.path) ∧
      (∀ x ∈ authority, isAuthorityTerminator x = false ∧ x ≠ '@') ∧
      ((∃ host port, Denotes authority host port) ∨ Stray authority) := by
  obtain ⟨hne, hscheme⟩ := scheme_chars c.scheme_mem
  obtain ⟨s, scheme, hs⟩ := List.exists_cons_of_ne_nil hne
  have hfirst : ¬Text.isWhitespace s := by
    rw [(hscheme s (hs ▸ List.mem_cons_self)).2]
    exact Bool.false_ne_true
  have htrim : ∀ rest, Text.trim (c.scheme ++ schemeSeparator ++ rest) =
      s :: (scheme ++ schemeSeparator ++ rest).rdropWhile Text.isWhitespace := fun rest => by
    rw [hs, List.cons_append, List.cons_append, Text.trim_cons hfirst]
  have hback : ∀ rest, s :: (scheme ++ schemeSeparator ++ rest) =
      c.scheme ++ schemeSeparator ++ rest := fun rest => by
    rw [hs, List.cons_append, List.cons_append]
  have htext : c.text = c.scheme ++ schemeSeparator ++ (c.authority ++ c.path) :=
    List.append_assoc _ _ _
  rw [htext, htrim]
  obtain ⟨host, port, hdenotes⟩ | hstray := c.authority_denotes
  · refine ⟨c.authority, ?_, c.authority_chars, .inl ⟨host, port, hdenotes⟩⟩
    rw [Text.rdropWhile_of_forall_not, hback]
    simp only [List.forall_mem_append]
    refine ⟨⟨fun x hx => ?_, schemeSeparator_chars⟩, fun x hx => ?_,
      fun x hx => (c.path_chars x hx).1⟩
    · rw [(hscheme x (hs ▸ List.mem_cons_of_mem s hx)).2]
      exact Bool.false_ne_true
    · have := hdenotes.chars x hx
      simp only [isAuthorityChar, Bool.not_eq_true', Bool.or_eq_false_iff] at this
      rw [this.2]
      exact Bool.false_ne_true
  · -- white space behind the bracket goes if it is at the end
    have hchars := c.authority_chars
    generalize c.authority = authority at hstray hchars ⊢
    obtain @⟨host, tail, hne, hhost, htail, hhead⟩ := hstray
    obtain ⟨tail', htail', hrest⟩ : ∃ tail', tail' <+: tail ∧
        (tail ++ c.path).rdropWhile Text.isWhitespace = tail' ++ c.path := by
      by_cases hpath : c.path = []
      · rw [hpath, List.append_nil]
        exact ⟨_, List.rdropWhile_prefix _ _, (List.append_nil _).symm⟩
      · refine ⟨tail, List.prefix_refl _, List.rdropWhile_eq_self_iff.2 fun hnil => ?_⟩
        rw [List.getLast_append_of_ne_nil hnil hpath]
        exact (c.path_chars _ (List.getLast_mem hpath)).1
    have hclose : ¬Text.isWhitespace ']' := by decide
    refine ⟨'[' :: (host ++ ']' :: tail'), ?_, fun x hx => hchars x ?_, ?_⟩
    · rw [show scheme ++ schemeSeparator ++ ('[' :: (host ++ ']' :: tail) ++ c.path) =
          (scheme ++ schemeSeparator ++ '[' :: host) ++ ']' :: (tail ++ c.path) by simp,
        Text.rdropWhile_append_cons _ _ hclose, hrest, hs]
      simp
    · simp only [List.mem_cons, List.mem_append] at hx ⊢
      exact hx.imp_right fun hx => hx.imp_right fun hx => hx.imp_right (htail'.subset ·)
    · cases tail' with
      | nil => exact .inl ⟨host, none, .literal hne hhost⟩
      | cons x xs =>
        refine .inr (.mk hne hhost (List.cons_ne_nil _ _) fun hx => hhead ?_)
        obtain ⟨ys, rfl⟩ := htail'
        exact hx

/-- The port of an authority that names one. -/
theorem splitHostPort_of_denotes {authority host : List Char} {port : Option ℕ}
    (h : Denotes authority host port) (tls : Bool) (redacted : List Char) :
    splitHostPort authority tls redacted = .ok (host, port.getD (defaultPort tls)) := by
  have hbracket : ∀ {host rest : List Char}, host ≠ [] → (∀ c ∈ host, isHostChar c ∧ c ≠ ':') →
      ∀ cs, host ++ rest ≠ '[' :: cs := fun {host rest} hne hhost cs h => by
    obtain ⟨c, host, rfl⟩ := List.exists_cons_of_ne_nil hne
    rw [List.cons_append, List.cons.injEq] at h
    have := (hhost c List.mem_cons_self).1
    rw [h.1] at this
    exact absurd this (by decide)
  have hclose : ∀ {host : List Char}, (∀ c ∈ host, isHostChar c) → ']' ∉ host := fun hhost hin =>
    absurd (hhost _ hin) (by decide)
  have hcolon : ∀ {text : List Char} {n : ℕ}, parseUnsigned u16Max text = some n → ':' ∉ text :=
    fun hport hin => (isHostChar_of_port hport hin).2 rfl
  cases h with
  | name hne hhost =>
    unfold splitHostPort
    split
    · exact absurd (List.append_nil _) (hbracket hne hhost _)
    · rw [Text.cutLast_of_not_mem fun hin => (hhost _ hin).2 rfl]
      rfl
  | namePort hne hhost hport =>
    unfold splitHostPort
    split
    · next heq => exact absurd heq (hbracket hne hhost _)
    · rw [Text.cutLast_append _ (hcolon hport)]
      simp [hne, statedPort, hport, Except.map]
  | literal hne hhost =>
    have hcut := Text.cut_singleton_append [] (hclose hhost)
    simp [splitHostPort, hcut]
  | @literalPort _ port _ hne hhost hport =>
    have hcut := Text.cut_singleton_append (':' :: port) (hclose hhost)
    simp [splitHostPort, hcut, statedPort, hport, Except.map]

theorem splitHostPort_of_stray {authority : List Char} (h : Stray authority) (tls : Bool)
    (redacted : List Char) : ∃ e, splitHostPort authority tls redacted = .error e := by
  obtain @⟨host, tail, hne, hhost, htail, hhead⟩ := h
  have hclose : ']' ∉ host := fun hin => absurd (hhost _ hin) (by decide)
  have hcut := Text.cut_singleton_append tail hclose
  obtain ⟨c, cs, rfl⟩ := List.exists_cons_of_ne_nil htail
  have hc : c ≠ ':' := fun hc => hhead (by rw [hc]; rfl)
  refine ⟨connectError redacted "malformed IPv6 authority", ?_⟩
  simp only [splitHostPort, hcut]
  split
  · next h => cases h
  · next h =>
    cases h
    exact absurd rfl hc
  · next h => cases h
  · rfl

theorem bareAuthority_append {authority path : List Char}
    (hchars : ∀ c ∈ authority, isAuthorityTerminator c = false ∧ c ≠ '@')
    (hpath : path = [] ∨ path.head? = some '/') :
    bareAuthority (authority ++ path) = authority := by
  have hslash : '/' ∉ authority := fun hin => absurd (hchars _ hin).1 (by decide)
  have hat : '@' ∉ authority := fun hin => (hchars _ hin).2 rfl
  have hhost : ((Text.cut ['/'] (authority ++ path)).map Prod.fst).getD (authority ++ path) =
      authority := by
    obtain rfl | hpath := hpath
    · rw [List.append_nil, Text.cut_eq_none (List.mem_singleton_self _) hslash]
      rfl
    · cases path with
      | nil => cases hpath
      | cons c cs =>
        cases hpath
        rw [Text.cut_singleton_append cs hslash]
        rfl
  rw [bareAuthority, hhost, Text.cutLast_of_not_mem hat]
  rfl

/-- Nothing but a `/` at the end is trimmed off. -/
theorem rdropWhile_slash {authority path : List Char}
    (hchars : ∀ c ∈ authority, isAuthorityTerminator c = false ∧ c ≠ '@')
    (hpath : path.getLast? ≠ some '/') :
    (authority ++ path).rdropWhile (· = '/') = authority ++ path := by
  rw [List.rdropWhile_eq_self_iff]
  intro hne
  simp only [decide_eq_true_eq]
  by_cases hnil : path = []
  · subst hnil
    simp only [List.append_nil] at hne ⊢
    intro hlast
    exact absurd (hchars _ (hlast ▸ List.getLast_mem hne)).1 (by decide)
  · rw [List.getLast_append_of_ne_nil _ hnil]
    intro hlast
    exact hpath (by rw [List.getLast?_eq_some_getLast hnil, hlast])

/-- The endpoint is named by the path alone. -/
theorem streamPath_suffix_iff {authority path : List Char}
    (hchars : ∀ c ∈ authority, isAuthorityTerminator c = false ∧ c ≠ '@') :
    streamPath <:+ authority ++ path ↔ streamPath <:+ path := by
  constructor
  · rintro ⟨before, hbefore⟩
    rcases List.append_eq_append_iff.1 hbefore with ⟨u, hu, hpath⟩ | ⟨u, hu, hpath⟩
    · -- the endpoint would start inside the authority
      cases u with
      | nil =>
        exact ⟨[], hpath⟩
      | cons c cs =>
        have hc : c = '/' := (List.cons.inj hpath).1.symm
        have := hchars c (by rw [hu]; simp)
        rw [hc] at this
        exact absurd this.1 (by decide)
    · exact ⟨u, by rw [hpath]⟩
  · intro h
    exact h.trans (List.suffix_append _ _)

theorem basePath_append (path : List Char) :
    (if streamPath <:+ path then path else path ++ streamPath) = basePath path ++ streamPath := by
  unfold basePath
  split_ifs with h
  · obtain ⟨before, rfl⟩ := h
    rw [List.length_append, Nat.add_sub_cancel, List.take_left]
  · rfl

end Lightstreamer.Transport
