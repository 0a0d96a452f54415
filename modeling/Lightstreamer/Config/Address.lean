import Lightstreamer.Foundations.Text
import Lightstreamer.Protocol.Basic

/-!
# The address of the server

`ServerAddress.tryNew` accepts a scheme, an authority and a base path, and keeps their canonical
form. `exists_canonical` is the shape of what it accepts.
-/

namespace Lightstreamer.Config

open Foundations Protocol

/-- Why a configuration is refused, as far as the address goes. -/
inductive ConfigError
  | emptyServerAddress
  | missingScheme (address : List Char)
  | unsupportedScheme (scheme : List Char)
  | missingHost (address : List Char)
  | addressHasUserinfo
  | invalidHost (host : List Char)
  | invalidPort (port : List Char)
  | invalidAddressPath (path : List Char)
  deriving DecidableEq

/-- The `Display` text of a refusal. -/
def ConfigError.display : ConfigError → String
  | emptyServerAddress => "server address is empty"
  | missingScheme address =>
    s!"server address `{String.ofList address}` has no scheme: expected " ++
      "ws://, wss://, http:// or https://"
  | unsupportedScheme scheme =>
    s!"unsupported scheme `{String.ofList scheme}`: expected ws, wss, http or https"
  | missingHost address => s!"server address `{String.ofList address}` has no host"
  | addressHasUserinfo => "server address must not contain credentials; use Credentials instead"
  | invalidHost host => s!"`{String.ofList host}` is not a host: an IPv6 literal must be " ++
      "bracketed, and no host may contain whitespace"
  | invalidPort port =>
    s!"`{String.ofList port}` is not a port: expected a number from 1 to 65535"
  | invalidAddressPath path => s!"`{String.ofList path}` is not a base path: no query, fragment " ++
      "or `..` segment is allowed"

/-- The separator between a scheme and its authority. -/
abbrev schemeSeparator : List Char := [':', '/', '/']

/-- The schemes that select a plain-text connection. -/
def insecureSchemes : List (List Char) := ["ws".toList, "http".toList]

/-- The schemes that select a TLS connection. -/
def secureSchemes : List (List Char) := ["wss".toList, "https".toList]

/-- Whether a character ends the authority. -/
def isAuthorityTerminator (c : Char) : Bool := c = '/' || c = '?' || c = '#'

/-- The largest `u16`. -/
abbrev u16Max : ℕ := 2 ^ 16 - 1

/-- Replace what stands before an `@` with the redaction marker. -/
def withoutUserinfo (address : List Char) : List Char :=
  let (scheme, rest) := match Text.cut schemeSeparator address with
    | some (scheme, rest) => (scheme ++ schemeSeparator, rest)
    | none => ([], address)
  let authority := rest.takeWhile fun c => !isAuthorityTerminator c
  let tail := rest.dropWhile fun c => !isAuthorityTerminator c
  match Text.cutLast '@' authority with
  | some (_, host) => scheme ++ "<redacted>@".toList ++ host ++ tail
  | none => address

/-- Cut an authority into its host and the text of its port. What follows the `]` of an IPv6 literal
is the port if it starts with `:`. -/
def authorityParts (authority : List Char) :
    Except ConfigError (List Char × Option (List Char)) :=
  match authority with
  | '[' :: bracketed => match Text.cut [']'] bracketed with
    | some (host, ':' :: port) => .ok (host, some port)
    | some (host, _) => .ok (host, none)
    | none => .error (.invalidHost authority)
  | authority => match Text.cutLast ':' authority with
    | some (host, port) => .ok (host, some port)
    | none => .ok (authority, none)

/-- Whether a character cannot stand in a host. -/
def isBadHostChar (c : Char) : Bool :=
  Text.isWhitespace c || Text.isControl c || c = '[' || c = ']' || c = '@'

/-- Check the host and the optional port of an authority without userinfo. -/
def checkAuthority (authority : List Char) : Except ConfigError Unit :=
  match authorityParts authority with
  | .error e => .error e
  | .ok (host, port) =>
    if host = [] ∨ host.any isBadHostChar ∨ authority.head? ≠ some '[' ∧ ':' ∈ host then
      .error (.invalidHost host)
    else match port with
      | some port =>
        if ∃ n ∈ parseUnsigned u16Max port, 1 ≤ n then .ok () else .error (.invalidPort port)
      | none => .ok ()

/-- Check what follows the authority, and give it in canonical form. -/
def checkPath (path : List Char) : Except ConfigError (List Char) :=
  if path.head? = some '?' ∨ path.head? = some '#' then .error (.invalidAddressPath path)
  else if ('?' ∈ path ∨ '#' ∈ path) ∨ path.any (fun c => Text.isWhitespace c || Text.isControl c) ∨
      "..".toList ∈ path.splitOn '/' then .error (.invalidAddressPath path)
  else .ok (path.rdropWhile (· = '/'))

/-- The address of a server: its canonical text, and whether the scheme selects TLS. -/
structure ServerAddress where
  text : List Char
  secure : Bool
  deriving DecidableEq

/-- Whether a scheme selects TLS. -/
def schemeSecure (scheme : List Char) : Option Bool :=
  if scheme ∈ secureSchemes then some true
  else if scheme ∈ insecureSchemes then some false
  else none

/-- Parse and check a server address. -/
def ServerAddress.tryNew (address : List Char) : Except ConfigError ServerAddress :=
  let trimmed := Text.trim address
  if trimmed = [] then .error .emptyServerAddress
  else match Text.cut schemeSeparator trimmed with
  | none => .error (.missingScheme (withoutUserinfo trimmed))
  | some (scheme, rest) =>
    let scheme := scheme.map Char.toLower
    match schemeSecure scheme with
    | none => .error (.unsupportedScheme scheme)
    | some secure =>
      let authority := rest.takeWhile fun c => !isAuthorityTerminator c
      let path := rest.dropWhile fun c => !isAuthorityTerminator c
      if authority = [] then .error (.missingHost (withoutUserinfo trimmed))
      else if '@' ∈ authority then .error .addressHasUserinfo
      else match checkAuthority authority, checkPath path with
      | .error e, _ => .error e
      | .ok _, .error e => .error e
      | .ok _, .ok path => .ok ⟨scheme ++ schemeSeparator ++ authority ++ path, secure⟩

/-! ## What is accepted -/

/-- A character that may stand in a host, brackets apart. -/
def isHostChar (c : Char) : Bool :=
  !(isAuthorityTerminator c || c = '@' || c = '[' || c = ']' || Text.isWhitespace c)

/-- An authority that names a host, and a port or none. -/
inductive Denotes : List Char → List Char → Option ℕ → Prop
  | name {host : List Char} (hne : host ≠ []) (hhost : ∀ c ∈ host, isHostChar c ∧ c ≠ ':') :
      Denotes host host none
  | namePort {host port : List Char} {n : ℕ} (hne : host ≠ [])
      (hhost : ∀ c ∈ host, isHostChar c ∧ c ≠ ':') (hport : parseUnsigned u16Max port = some n) :
      Denotes (host ++ ':' :: port) host (some n)
  | literal {host : List Char} (hne : host ≠ []) (hhost : ∀ c ∈ host, isHostChar c) :
      Denotes ('[' :: (host ++ [']'])) host none
  | literalPort {host port : List Char} {n : ℕ} (hne : host ≠ []) (hhost : ∀ c ∈ host, isHostChar c)
      (hport : parseUnsigned u16Max port = some n) :
      Denotes ('[' :: (host ++ ']' :: ':' :: port)) host (some n)

/-- An authority with something other than a port behind a bracketed host. -/
inductive Stray : List Char → Prop
  | mk {host tail : List Char} (hhost : host ≠ []) (hchars : ∀ c ∈ host, isHostChar c)
      (htail : tail ≠ []) (hhead : tail.head? ≠ some ':') : Stray ('[' :: (host ++ ']' :: tail))

/-- The digits of a number, and the sign before them. -/
theorem mem_of_parseUnsigned {max n : ℕ} {text : List Char} (h : parseUnsigned max text = some n)
    {c : Char} (hc : c ∈ text) : c = '+' ∨ c.isDigit := by
  have hrun : ∀ {cs}, (parseDigits cs).filter (· ≤ max) = some n → ∀ c ∈ cs, c.isDigit :=
    fun hcs => (parseDigits_eq_some_iff.1 (Option.filter_eq_some_iff.1 hcs).1).2.1
  unfold parseUnsigned at h
  split at h
  · next rest =>
    rcases List.mem_cons.1 hc with rfl | hc
    · exact .inl rfl
    · exact .inr (hrun h c hc)
  · exact .inr (hrun h c hc)

/-- What no character of an authority is, whitespace included. -/
def isAuthorityChar (c : Char) : Bool :=
  !(isAuthorityTerminator c || c = '@' || Text.isWhitespace c)

theorem isAuthorityChar_of_isHostChar {c : Char} (h : isHostChar c) : isAuthorityChar c := by
  simp only [isHostChar, Bool.not_eq_true', Bool.or_eq_false_iff] at h
  simp only [isAuthorityChar, Bool.not_eq_true', Bool.or_eq_false_iff]
  exact ⟨h.1.1.1, h.2⟩

theorem isHostChar_of_port {max n : ℕ} {port : List Char} (h : parseUnsigned max port = some n)
    {c : Char} (hc : c ∈ port) : isHostChar c ∧ c ≠ ':' := by
  rcases mem_of_parseUnsigned h hc with rfl | hdigit
  · decide
  · simp only [Char.isDigit, Bool.and_eq_true, decide_eq_true_eq, ge_iff_le, UInt32.le_iff_toNat_le]
      at hdigit
    have hlow : 48 ≤ c.toNat := hdigit.1
    have hhigh : c.toNat ≤ 57 := hdigit.2
    have hne : ∀ d : Char, d.toNat < 48 ∨ 57 < d.toNat → c ≠ d := fun d hd hcd => by
      subst hcd
      omega
    refine ⟨?_, hne _ (by decide)⟩
    simp only [isHostChar, isAuthorityTerminator, Text.isWhitespace, Bool.not_eq_true',
      Bool.or_eq_false_iff, Bool.and_eq_false_iff, decide_eq_false_iff_not]
    refine ⟨⟨⟨⟨⟨⟨?_, ?_⟩, ?_⟩, ?_⟩, ?_⟩, ?_⟩, by omega⟩
    all_goals exact hne _ (by decide)

theorem Denotes.ne_nil {authority host : List Char} {port : Option ℕ}
    (h : Denotes authority host port) : authority ≠ [] := by
  cases h with
  | name hne => exact hne
  | namePort => simp
  | literal => simp
  | literalPort => simp

theorem Stray.ne_nil {authority : List Char} (h : Stray authority) : authority ≠ [] := by
  cases h with
  | mk => exact List.cons_ne_nil _ _

theorem Denotes.chars {authority host : List Char} {port : Option ℕ}
    (h : Denotes authority host port) : ∀ c ∈ authority, isAuthorityChar c := by
  have hhostChar : ∀ {cs : List Char}, (∀ c ∈ cs, isHostChar c) → ∀ c ∈ cs, isAuthorityChar c :=
    fun h c hc => isAuthorityChar_of_isHostChar (h c hc)
  have hportChar : ∀ {port : List Char} {n : ℕ}, parseUnsigned u16Max port = some n →
      ∀ c ∈ port, isAuthorityChar c := fun h c hc =>
    isAuthorityChar_of_isHostChar (isHostChar_of_port h hc).1
  cases h with
  | name hne hhost => exact hhostChar fun c hc => (hhost c hc).1
  | namePort hne hhost hport =>
    exact List.forall_mem_append.2 ⟨hhostChar fun c hc => (hhost c hc).1,
      List.forall_mem_cons.2 ⟨by decide, hportChar hport⟩⟩
  | literal hne hhost =>
    exact List.forall_mem_cons.2 ⟨by decide,
      List.forall_mem_append.2 ⟨hhostChar hhost, List.forall_mem_cons.2 ⟨by decide, by simp⟩⟩⟩
  | literalPort hne hhost hport =>
    exact List.forall_mem_cons.2 ⟨by decide, List.forall_mem_append.2 ⟨hhostChar hhost,
      List.forall_mem_cons.2 ⟨by decide, List.forall_mem_cons.2 ⟨by decide, hportChar hport⟩⟩⟩⟩

theorem isHostChar_of_ok {c : Char} (hbad : isBadHostChar c = false)
    (hend : isAuthorityTerminator c = false) : isHostChar c := by
  simp only [isBadHostChar, Bool.or_eq_false_iff] at hbad
  simp only [isHostChar, Bool.not_eq_true', Bool.or_eq_false_iff]
  exact ⟨⟨⟨⟨hend, hbad.2⟩, hbad.1.1.2⟩, hbad.1.2⟩, hbad.1.1.1.1⟩

/-- An accepted authority names a host, or has something stray behind a bracketed one. -/
theorem checkAuthority_ok {authority : List Char} (h : checkAuthority authority = .ok ())
    (hend : ∀ c ∈ authority, isAuthorityTerminator c = false) :
    (∃ host port, Denotes authority host port) ∨ Stray authority := by
  unfold checkAuthority at h
  split at h
  · cases h
  · next host port hparts =>
    split_ifs at h with hhost
    simp only [not_or, Bool.not_eq_true, List.any_eq_false] at hhost
    obtain ⟨hne, hbad, hcolon⟩ := hhost
    have hok : ∀ c ∈ host, isAuthorityTerminator c = false → isHostChar c := fun c hc =>
      isHostChar_of_ok (by simpa using hbad c hc)
    have hport : ∀ text, port = some text → ∃ n, parseUnsigned u16Max text = some n := by
      rintro text rfl
      dsimp only at h
      split_ifs at h with hn
      exact hn.imp fun n hn => hn.1
    unfold authorityParts at hparts
    split at hparts
    · next bracketed =>
      split at hparts
      · next host' text hcut =>
        cases hparts
        obtain ⟨n, hn⟩ := hport text rfl
        rw [Text.eq_of_cut hcut] at hend ⊢
        refine .inl ⟨host, some n, ?_⟩
        have := Denotes.literalPort hne (fun c hc => hok c hc (hend c (by simp [hc]))) hn
        simpa using this
      · next host' tail htail hcut =>
        cases hparts
        rw [Text.eq_of_cut hcut] at hend ⊢
        have hhost : ∀ c ∈ host, isHostChar c := fun c hc => hok c hc (hend c (by simp [hc]))
        by_cases htail' : tail = []
        · subst htail'
          exact .inl ⟨host, none, by simpa using Denotes.literal hne hhost⟩
        · have hcolon' : tail.head? ≠ some ':' := fun hhead => by
            obtain ⟨d, ds, rfl⟩ := List.exists_cons_of_ne_nil htail'
            cases hhead
            exact htail ds rfl
          exact .inr (by simpa using Stray.mk hne hhost htail' hcolon')
      · cases hparts
    · next hbracket =>
      have hhead : authority.head? ≠ some '[' := fun hhead => by
        cases authority with
        | nil => cases hhead
        | cons c cs =>
          cases hhead
          exact hbracket cs rfl
      have hno : ':' ∉ host := fun hin => hcolon ⟨hhead, hin⟩
      split at hparts
      · next host' text hcut =>
        cases hparts
        obtain ⟨n, hn⟩ := hport text rfl
        rw [Text.eq_of_cutLast hcut] at hend ⊢
        exact .inl ⟨host, some n, .namePort hne (fun c hc =>
          ⟨hok c hc (hend c (by simp [hc])), fun hcc => hno (hcc ▸ hc)⟩) hn⟩
      · cases hparts
        exact .inl ⟨_, none, .name hne fun c hc =>
          ⟨hok c hc (hend c hc), fun hcc => hno (hcc ▸ hc)⟩⟩

/-- The canonical form of an accepted address. -/
structure Canonical where
  secure : Bool
  scheme : List Char
  authority : List Char
  path : List Char
  scheme_mem : scheme ∈ if secure then secureSchemes else insecureSchemes
  authority_chars : ∀ c ∈ authority, isAuthorityTerminator c = false ∧ c ≠ '@'
  authority_denotes : (∃ host port, Denotes authority host port) ∨ Stray authority
  path_head : path = [] ∨ path.head? = some '/'
  path_chars : ∀ c ∈ path, ¬Text.isWhitespace c ∧ c ≠ '?' ∧ c ≠ '#'
  path_last : path.getLast? ≠ some '/'

namespace Canonical

def text (c : Canonical) : List Char := c.scheme ++ schemeSeparator ++ c.authority ++ c.path

end Canonical

theorem checkPath_ok {path canonical : List Char} (h : checkPath path = .ok canonical)
    (hhead : ∀ c ∈ path.head?, isAuthorityTerminator c) :
    (canonical = [] ∨ canonical.head? = some '/') ∧
      (∀ c ∈ canonical, ¬Text.isWhitespace c ∧ c ≠ '?' ∧ c ≠ '#') ∧
      canonical.getLast? ≠ some '/' := by
  unfold checkPath at h
  split_ifs at h with hstart hbad
  cases h
  simp only [not_or, List.any_eq_true, not_exists, not_and, Bool.or_eq_true] at hstart hbad
  obtain ⟨⟨hquery, hfragment⟩, hchars, -⟩ := hbad
  have hsub : path.rdropWhile (· = '/') <+: path := List.rdropWhile_prefix _ path
  refine ⟨?_, fun c hc => ⟨fun hspace => ?_, ?_, ?_⟩, fun hlast => ?_⟩
  · obtain ⟨rest, hrest⟩ := hsub
    cases hcanonical : path.rdropWhile (· = '/') with
    | nil => exact .inl rfl
    | cons d ds =>
      rw [hcanonical, List.cons_append] at hrest
      have hterm := hhead d (by rw [← hrest]; rfl)
      rw [← hrest] at hstart
      simp only [isAuthorityTerminator, Bool.or_eq_true, decide_eq_true_eq] at hterm
      rcases hterm with (rfl | rfl) | rfl
      · exact .inr rfl
      · exact absurd rfl hstart.1
      · exact absurd rfl hstart.2
  · exact (hchars c (hsub.subset hc)).1 hspace
  · rintro rfl
    exact hquery (hsub.subset hc)
  · rintro rfl
    exact hfragment (hsub.subset hc)
  · have hne : path.rdropWhile (· = '/') ≠ [] := fun hnil => by
      rw [hnil] at hlast
      cases hlast
    have := List.rdropWhile_last_not (p := (· = '/')) path hne
    rw [List.getLast?_eq_some_getLast hne, Option.some.injEq] at hlast
    simp [hlast] at this

/-- **What is accepted**: the canonical form of an address is kept. -/
theorem exists_canonical {address : List Char} {a : ServerAddress}
    (h : ServerAddress.tryNew address = .ok a) :
    ∃ c : Canonical, a.text = c.text ∧ a.secure = c.secure := by
  unfold ServerAddress.tryNew at h
  dsimp only at h
  split_ifs at h with hempty
  split at h
  · cases h
  · next scheme rest hcut =>
    split at h
    · cases h
    · next secure hsecure =>
      split_ifs at h with hauthority huserinfo
      split at h
      · cases h
      · cases h
      · next u path hcheck hpath =>
        cases h
        have hend : ∀ c ∈ rest.takeWhile fun c => !isAuthorityTerminator c,
            isAuthorityTerminator c = false := fun c hc => by
          simpa using List.mem_takeWhile_imp hc
        have hhead : ∀ c ∈ (rest.dropWhile fun c => !isAuthorityTerminator c).head?,
            isAuthorityTerminator c := fun c hc => by
          have := List.head?_dropWhile_not (fun c => !isAuthorityTerminator c) rest
          rw [Option.mem_def.1 hc] at this
          simpa using this
        obtain ⟨hpathHead, hpathChars, hpathLast⟩ := checkPath_ok hpath hhead
        refine ⟨⟨secure, scheme.map Char.toLower, _, path, ?_, fun c hc => ⟨hend c hc, ?_⟩,
          checkAuthority_ok hcheck hend, hpathHead, hpathChars, hpathLast⟩, rfl, rfl⟩
        · unfold schemeSecure at hsecure
          split_ifs at hsecure with h1 h2 <;> cases hsecure <;> assumption
        · rintro rfl
          exact huserinfo hc

end Lightstreamer.Config
