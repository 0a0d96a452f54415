import Lightstreamer.Config.Address

/-!
# The credentials in a rejected address

An address that is refused is shown in the refusal. Two addresses that differ in a password are
compared: `refusals_indistinct` is when their refusals cannot tell which of the two was given.
-/

namespace Lightstreamer.Config

open Foundations Protocol

/-! ## The authority and its tail -/

/-- The authority at the front of a text. -/
abbrev authorityOf (rest : List Char) : List Char :=
  rest.takeWhile fun c => !isAuthorityTerminator c

/-- What follows the authority. -/
abbrev tailOf (rest : List Char) : List Char := rest.dropWhile fun c => !isAuthorityTerminator c

section

variable {xs ys : List Char} {c : Char}

theorem authorityOf_append_cons (hc : isAuthorityTerminator c) :
    authorityOf (xs ++ c :: ys) = authorityOf xs :=
  Text.takeWhile_append_cons xs ys (by simp [hc])

theorem tailOf_append_cons (hc : isAuthorityTerminator c) :
    tailOf (xs ++ c :: ys) = tailOf xs ++ c :: ys :=
  Text.dropWhile_append_cons xs ys (by simp [hc])

theorem tailOf_eq_nil_iff : tailOf xs = [] ↔ ∀ c ∈ xs, isAuthorityTerminator c = false := by
  simp only [tailOf, List.dropWhile_eq_nil_iff, Bool.not_eq_true']

theorem authorityOf_append (hxs : tailOf xs = []) : authorityOf (xs ++ ys) = xs ++ authorityOf ys :=
  List.takeWhile_append_of_pos (List.dropWhile_eq_nil_iff.mp hxs)

theorem tailOf_append (hxs : tailOf xs = []) : tailOf (xs ++ ys) = tailOf ys :=
  List.dropWhile_append_of_pos (List.dropWhile_eq_nil_iff.mp hxs)

/-- A text with a tail has a terminator. -/
theorem exists_terminator (h : tailOf xs ≠ []) :
    ∃ front c back, xs = front ++ c :: back ∧ isAuthorityTerminator c := by
  obtain ⟨c, hmem, hc⟩ : ∃ c ∈ xs, isAuthorityTerminator c := by
    by_contra hnone
    push Not at hnone
    exact h (tailOf_eq_nil_iff.mpr fun c hc => Bool.eq_false_iff.mpr (hnone c hc))
  obtain ⟨front, back, rfl⟩ := List.append_of_mem hmem
  exact ⟨front, c, back, rfl, hc⟩

theorem authorityOf_append_of_tail (h : tailOf xs ≠ []) :
    authorityOf (xs ++ ys) = authorityOf xs := by
  obtain ⟨front, c, back, rfl, hc⟩ := exists_terminator h
  rw [List.append_assoc, List.cons_append, authorityOf_append_cons hc, authorityOf_append_cons hc]

theorem tailOf_append_of_tail (h : tailOf xs ≠ []) : tailOf (xs ++ ys) = tailOf xs ++ ys := by
  obtain ⟨front, c, back, rfl, hc⟩ := exists_terminator h
  rw [List.append_assoc, List.cons_append, tailOf_append_cons hc, tailOf_append_cons hc,
    List.append_assoc, List.cons_append]

end

/-! ## What a refusal shows -/

/-- What is shown of the text behind the scheme: an authority loses what stands before its `@`. -/
def redacted (rest : List Char) : List Char :=
  match Text.cutLast '@' (authorityOf rest) with
  | some (_, host) => "<redacted>@".toList ++ host ++ tailOf rest
  | none => rest

theorem withoutUserinfo_of_cut {address scheme rest : List Char}
    (h : Text.cut schemeSeparator address = some (scheme, rest)) :
    withoutUserinfo address = scheme ++ schemeSeparator ++ redacted rest := by
  unfold withoutUserinfo redacted
  rw [h]
  dsimp only
  cases Text.cutLast '@' (authorityOf rest) with
  | some p => simp only [List.append_assoc]
  | none => exact Text.eq_of_cut h

theorem withoutUserinfo_of_cut_none {address : List Char}
    (h : Text.cut schemeSeparator address = none) : withoutUserinfo address = redacted address := by
  unfold withoutUserinfo redacted
  rw [h]
  dsimp only
  cases Text.cutLast '@' (authorityOf address) with
  | some p => rw [List.nil_append]
  | none => rfl

/-- From a terminator on, the text is shown as it stands. -/
theorem redacted_append {xs : List Char} (h : tailOf xs ≠ []) (ys : List Char) :
    redacted (xs ++ ys) = redacted xs ++ ys := by
  unfold redacted
  rw [authorityOf_append_of_tail h, tailOf_append_of_tail h]
  cases Text.cutLast '@' (authorityOf xs) with
  | some p => simp only [List.append_assoc]
  | none => rfl

/-- The text up to an `@` of the authority is not shown. -/
theorem redacted_append_at {xs : List Char} (h : tailOf xs = []) (ys : List Char) :
    redacted (xs ++ '@' :: ys) = redacted ('@' :: ys) := by
  have hat : authorityOf ('@' :: ys) = '@' :: authorityOf ys :=
    List.takeWhile_cons_of_pos (by decide)
  obtain ⟨before, hbefore⟩ := Text.cutLast_append_cons '@' xs (authorityOf ys)
  obtain ⟨before', hbefore'⟩ := Text.cutLast_append_cons '@' [] (authorityOf ys)
  rw [List.nil_append] at hbefore'
  unfold redacted
  rw [authorityOf_append h, tailOf_append h, hat, hbefore, hbefore']

/-! ## The outcomes -/

section

variable {address scheme rest : List Char}

theorem tryNew_of_cut_none (hne : Text.trim address ≠ [])
    (hcut : Text.cut schemeSeparator (Text.trim address) = none) :
    ServerAddress.tryNew address = .error (.missingScheme (redacted (Text.trim address))) := by
  unfold ServerAddress.tryNew
  dsimp only
  rw [if_neg hne, hcut, withoutUserinfo_of_cut_none hcut]

theorem trim_ne_nil_of_cut
    (hcut : Text.cut schemeSeparator (Text.trim address) = some (scheme, rest)) :
    Text.trim address ≠ [] := fun hnil => by
  rw [hnil] at hcut
  cases hcut

theorem tryNew_of_unsupported
    (hcut : Text.cut schemeSeparator (Text.trim address) = some (scheme, rest))
    (hscheme : schemeSecure (scheme.map Char.toLower) = none) :
    ServerAddress.tryNew address = .error (.unsupportedScheme (scheme.map Char.toLower)) := by
  unfold ServerAddress.tryNew
  dsimp only
  rw [if_neg (trim_ne_nil_of_cut hcut), hcut]
  dsimp only
  rw [hscheme]

/-- Behind a supported scheme, the authority is checked and then the path. -/
theorem tryNew_of_cut {secure : Bool}
    (hcut : Text.cut schemeSeparator (Text.trim address) = some (scheme, rest))
    (hsecure : schemeSecure (scheme.map Char.toLower) = some secure) :
    ServerAddress.tryNew address =
      if authorityOf rest = [] then
        .error (.missingHost (scheme ++ schemeSeparator ++ redacted rest))
      else if '@' ∈ authorityOf rest then .error .addressHasUserinfo
      else match checkAuthority (authorityOf rest), checkPath (tailOf rest) with
      | .error e, _ => .error e
      | .ok _, .error e => .error e
      | .ok _, .ok path =>
        .ok ⟨scheme.map Char.toLower ++ schemeSeparator ++ authorityOf rest ++ path, secure⟩ := by
  unfold ServerAddress.tryNew
  dsimp only
  rw [if_neg (trim_ne_nil_of_cut hcut), hcut]
  dsimp only
  rw [hsecure]
  exact if_congr Iff.rfl (by rw [withoutUserinfo_of_cut hcut]) rfl

theorem tryNew_of_no_host
    (hcut : Text.cut schemeSeparator (Text.trim address) = some (scheme, rest))
    (hscheme : schemeSecure (scheme.map Char.toLower) ≠ none) (hhost : authorityOf rest = []) :
    ServerAddress.tryNew address =
      .error (.missingHost (scheme ++ schemeSeparator ++ redacted rest)) := by
  obtain ⟨secure, hsecure⟩ := Option.ne_none_iff_exists'.mp hscheme
  rw [tryNew_of_cut hcut hsecure, if_pos hhost]

theorem tryNew_of_userinfo
    (hcut : Text.cut schemeSeparator (Text.trim address) = some (scheme, rest))
    (hscheme : schemeSecure (scheme.map Char.toLower) ≠ none) (hat : '@' ∈ authorityOf rest) :
    ServerAddress.tryNew address = .error .addressHasUserinfo := by
  obtain ⟨secure, hsecure⟩ := Option.ne_none_iff_exists'.mp hscheme
  rw [tryNew_of_cut hcut hsecure, if_neg (List.ne_nil_of_mem hat), if_pos hat]

/-- An authority that names no user is checked, and then what follows it. -/
theorem tryNew_of_host
    (hcut : Text.cut schemeSeparator (Text.trim address) = some (scheme, rest))
    (hscheme : schemeSecure (scheme.map Char.toLower) ≠ none) (hhost : authorityOf rest ≠ [])
    (hat : '@' ∉ authorityOf rest) {e : ConfigError}
    (he : checkAuthority (authorityOf rest) = .error e ∨
      checkAuthority (authorityOf rest) = .ok () ∧ checkPath (tailOf rest) = .error e) :
    ServerAddress.tryNew address = .error e := by
  obtain ⟨secure, hsecure⟩ := Option.ne_none_iff_exists'.mp hscheme
  rw [tryNew_of_cut hcut hsecure, if_neg hhost, if_neg hat]
  rcases he with he | ⟨hok, he⟩
  · rw [he]
  · rw [hok, he]

end

theorem eq_invalidHost_of_authorityParts {authority : List Char} {e : ConfigError}
    (h : authorityParts authority = .error e) : e = .invalidHost authority := by
  unfold authorityParts at h
  split at h
  · split at h <;> cases h
    rfl
  · split at h <;> cases h

theorem checkAuthority_ne_userinfo (authority : List Char) :
    checkAuthority authority ≠ .error .addressHasUserinfo := fun h => by
  unfold checkAuthority at h
  split at h
  · next e hparts =>
    rw [eq_invalidHost_of_authorityParts hparts] at h
    cases h
  · split_ifs at h
    · cases h
    · split at h
      · split_ifs at h
        cases h
      · cases h

/-! ## Addresses with a credential -/

/-- An address with a credential in it. -/
def credentialed (scheme : Option (List Char)) (user password host : List Char) : List Char :=
  scheme.elim [] (· ++ schemeSeparator) ++ user ++ ':' :: password ++ '@' :: host

/-- What stands before the password, without the white space at the front. -/
def opening (scheme : Option (List Char)) (user : List Char) : List Char :=
  (scheme.elim [] (· ++ schemeSeparator) ++ user ++ [':']).dropWhile Text.isWhitespace

/-- What stands behind the password, without the white space at the end. -/
def closing (host : List Char) : List Char := '@' :: host.rdropWhile Text.isWhitespace

theorem opening_eq (scheme : Option (List Char)) (user : List Char) : opening scheme user =
    (scheme.elim [] (· ++ schemeSeparator) ++ user).dropWhile Text.isWhitespace ++ [':'] :=
  Text.dropWhile_append_cons _ [] (by decide)

theorem trim_credentialed (scheme : Option (List Char)) (user password host : List Char) :
    Text.trim (credentialed scheme user password host) =
      opening scheme user ++ password ++ closing host := by
  rw [Text.trim, credentialed, opening_eq, closing, List.append_assoc, List.cons_append,
    Text.dropWhile_append_cons _ _ (by decide), ← List.cons_append, ← List.append_assoc,
    Text.rdropWhile_append_cons _ _ (by decide)]
  simp only [List.append_assoc, List.cons_append, List.nil_append]

/-- Whether an address is refused for what stands before the password. -/
def RefusedBefore (before : List Char) : Prop :=
  ∃ scheme rest, Text.cut schemeSeparator before = some (scheme, rest) ∧
    (schemeSecure (scheme.map Char.toLower) = none ∨ '@' ∈ authorityOf rest ∨
      tailOf rest ≠ [] ∧ authorityOf rest ≠ [] ∧ ∃ e, checkAuthority (authorityOf rest) = .error e)

/-- Whether a password without a terminator is in an authority, or in front of an `@` that no scheme
precedes. -/
def Shielded (before host : List Char) : Prop :=
  match Text.cut schemeSeparator before with
  | some (_, rest) => tailOf rest = []
  | none => tailOf before = [] ∧ Text.cut schemeSeparator (closing host) = none

/-- Whether the refusals of two passwords are one, where both are refused. -/
def Indistinct (scheme : Option (List Char)) (user host p q : List Char) : Prop :=
  ∀ e e', ServerAddress.tryNew (credentialed scheme user p host) = .error e →
    ServerAddress.tryNew (credentialed scheme user q host) = .error e' → e = e'

section

variable {scheme : Option (List Char)} {user : List Char} (host : List Char)

theorem cut_credentialed {s rest : List Char}
    (h : Text.cut schemeSeparator (opening scheme user) = some (s, rest)) (p : List Char) :
    Text.cut schemeSeparator (Text.trim (credentialed scheme user p host)) =
      some (s, rest ++ (p ++ closing host)) := by
  rw [trim_credentialed, List.append_assoc]
  exact Text.cut_append_of_eq_some h _

/-- What is cut behind the password is in the host. -/
theorem cut_credentialed_of_none (h : Text.cut schemeSeparator (opening scheme user) = none)
    {p : List Char} (hp : '/' ∉ p) :
    Text.cut schemeSeparator (Text.trim (credentialed scheme user p host)) =
      (Text.cut schemeSeparator (closing host)).map fun s =>
        (opening scheme user ++ p ++ s.1, s.2) := by
  have hfront : Text.cut schemeSeparator (opening scheme user ++ p) = none :=
    Text.cut_append_eq_none (show Text.cut ([':', '/'] ++ ['/']) _ = none from h) hp
  have hat : '@' ∉ schemeSeparator := by decide
  have hwhole := Text.cut_append_cons (List.cons_ne_nil _ _) hat (opening scheme user ++ p)
    (host.rdropWhile Text.isWhitespace)
  have hclosing := Text.cut_append_cons (List.cons_ne_nil _ _) hat []
    (host.rdropWhile Text.isWhitespace)
  rw [hfront] at hwhole
  rw [trim_credentialed, closing, hwhole]
  rw [List.nil_append] at hclosing
  rw [hclosing]
  dsimp only [Text.cut]
  rw [Option.map_map]
  rfl

/-- A password in an authority is refused as such. -/
theorem tryNew_of_password {s rest : List Char}
    (hcut : Text.cut schemeSeparator (opening scheme user) = some (s, rest))
    (hscheme : schemeSecure (s.map Char.toLower) ≠ none) (htail : tailOf rest = [])
    {p : List Char} (hp : tailOf p = []) :
    ServerAddress.tryNew (credentialed scheme user p host) = .error .addressHasUserinfo := by
  refine tryNew_of_userinfo (cut_credentialed host hcut p) hscheme ?_
  rw [authorityOf_append htail, authorityOf_append hp, closing]
  have hat : '@' ∈ authorityOf ('@' :: host.rdropWhile Text.isWhitespace) := by
    simp [authorityOf, isAuthorityTerminator]
  exact List.mem_append_right _ (List.mem_append_right _ hat)

variable {host}

/-- Without a scheme, the text is shown without its userinfo. -/
theorem tryNew_of_no_scheme (hcut : Text.cut schemeSeparator (opening scheme user) = none)
    (hclosing : Text.cut schemeSeparator (closing host) = none) {p : List Char} (hp : '/' ∉ p) :
    ServerAddress.tryNew (credentialed scheme user p host) =
      .error (.missingScheme (redacted (opening scheme user ++ p ++ closing host))) := by
  have hnone := cut_credentialed_of_none host hcut hp
  rw [hclosing, Option.map_none] at hnone
  have hne : Text.trim (credentialed scheme user p host) ≠ [] := by
    rw [trim_credentialed]
    exact List.append_ne_nil_of_right_ne_nil _ (List.cons_ne_nil _ _)
  rw [tryNew_of_cut_none hne hnone, trim_credentialed]

variable (host) in
/-- What is refused before the password is refused alike for all passwords. -/
theorem RefusedBefore.exists_error (h : RefusedBefore (opening scheme user)) :
    ∃ e, ∀ p, ServerAddress.tryNew (credentialed scheme user p host) = .error e := by
  obtain ⟨s, rest, hcut, h⟩ := h
  by_cases hscheme : schemeSecure (s.map Char.toLower) = none
  · exact ⟨_, fun p => tryNew_of_unsupported (cut_credentialed host hcut p) hscheme⟩
  rcases h with h | hat | ⟨htail, hhost, e, he⟩
  · exact absurd h hscheme
  · refine ⟨_, fun p => tryNew_of_userinfo (cut_credentialed host hcut p) hscheme ?_⟩
    by_cases htail : tailOf rest = []
    · rw [authorityOf_append htail]
      exact List.mem_append_left _ ((List.takeWhile_prefix _).subset hat)
    · rwa [authorityOf_append_of_tail htail]
  · by_cases hat : '@' ∈ authorityOf rest
    · refine ⟨_, fun p => tryNew_of_userinfo (cut_credentialed host hcut p) hscheme ?_⟩
      rwa [authorityOf_append_of_tail htail]
    · refine ⟨e, fun p => tryNew_of_host (cut_credentialed host hcut p) hscheme ?_ ?_ (.inl ?_)⟩
      all_goals rwa [authorityOf_append_of_tail htail]

/-- A password in an authority is refused as such, and one without a scheme is not shown. -/
theorem Shielded.exists_error (h : Shielded (opening scheme user) host) :
    ∃ e, ∀ p, tailOf p = [] →
      ServerAddress.tryNew (credentialed scheme user p host) = .error e := by
  unfold Shielded at h
  split at h
  · next s rest hcut =>
    by_cases hscheme : schemeSecure (s.map Char.toLower) = none
    · exact ⟨_, fun p _ => tryNew_of_unsupported (cut_credentialed host hcut p) hscheme⟩
    · exact ⟨_, fun p hp => tryNew_of_password host hcut hscheme h hp⟩
  · next hcut =>
    obtain ⟨htail, hclosing⟩ := h
    refine ⟨.missingScheme (redacted (closing host)), fun p hp => ?_⟩
    have hslash : '/' ∉ p := fun hin => by
      have := tailOf_eq_nil_iff.mp hp _ hin
      contradiction
    have hfront : tailOf (opening scheme user ++ p) = [] := by rw [tailOf_append htail, hp]
    rw [tryNew_of_no_scheme hcut hclosing hslash, closing, redacted_append_at hfront]

theorem schemeSecure_of_colon {scheme : List Char} (h : ':' ∈ scheme) :
    schemeSecure scheme = none := by
  have hsecure : scheme ∉ secureSchemes := fun hin => by
    have : ∀ s ∈ secureSchemes, ':' ∉ s := by decide
    exact this _ hin h
  have hinsecure : scheme ∉ insecureSchemes := fun hin => by
    have : ∀ s ∈ insecureSchemes, ':' ∉ s := by decide
    exact this _ hin h
  rw [schemeSecure, if_neg hsecure, if_neg hinsecure]

theorem checkPath_of_whitespace {path : List Char} {c : Char} (hc : Text.isWhitespace c)
    (hmem : c ∈ path) : checkPath path = .error (.invalidAddressPath path) := by
  have hany : path.any (fun c => Text.isWhitespace c || Text.isControl c) :=
    List.any_eq_true.mpr ⟨c, hmem, by rw [hc, Bool.true_or]⟩
  unfold checkPath
  split_ifs with hstart hbad
  · rfl
  · rfl
  · exact absurd (.inr (.inl hany)) hbad

/-- What is neither refused before the password nor shielded is shown, or what follows it is. -/
theorem not_indistinct_of_not_shielded (hbefore : ¬RefusedBefore (opening scheme user))
    (hshielded : ¬Shielded (opening scheme user) host) :
    ¬Indistinct scheme user host [' ', 'a'] [' ', 'b'] := by
  unfold Shielded at hshielded
  intro h
  split at hshielded
  · next s rest hcut =>
    have hscheme : schemeSecure (s.map Char.toLower) ≠ none := fun hnone =>
      hbefore ⟨s, rest, hcut, .inl hnone⟩
    have hauthority (p : List Char) :
        authorityOf (rest ++ (p ++ closing host)) = authorityOf rest :=
      authorityOf_append_of_tail hshielded
    by_cases hhost : authorityOf rest = []
    · have hshown (p : List Char) := tryNew_of_no_host (cut_credentialed host hcut p)
        hscheme ((hauthority p).trans hhost)
      have := ConfigError.missingHost.inj (h _ _ (hshown _) (hshown _))
      rw [redacted_append hshielded, redacted_append hshielded] at this
      simp at this
    · have hat : '@' ∉ authorityOf rest := fun hat => hbefore ⟨s, rest, hcut, .inr (.inl hat)⟩
      cases hcheck : checkAuthority (authorityOf rest) with
      | error e => exact hbefore ⟨s, rest, hcut, .inr (.inr ⟨hshielded, hhost, e, hcheck⟩)⟩
      | ok u =>
        have hshown (p : List Char) (hp : ' ' ∈ p) :=
          tryNew_of_host (cut_credentialed host hcut p) hscheme
            (by rwa [hauthority]) (by rwa [hauthority]) (.inr ⟨by rwa [hauthority],
              checkPath_of_whitespace (c := ' ') (by decide) (by
                rw [tailOf_append_of_tail hshielded]
                simp [hp])⟩)
        have := ConfigError.invalidAddressPath.inj
          (h _ _ (hshown _ (by decide)) (hshown _ (by decide)))
        rw [tailOf_append_of_tail hshielded, tailOf_append_of_tail hshielded] at this
        simp at this
  · next hcut =>
    cases hclosing : Text.cut schemeSeparator (closing host) with
    | some t =>
      have hshown (p : List Char) (hp : '/' ∉ p) := tryNew_of_unsupported
        ((cut_credentialed_of_none host hcut hp).trans (by rw [hclosing, Option.map_some]))
        (schemeSecure_of_colon (by simp [opening_eq]))
      have := ConfigError.unsupportedScheme.inj
        (h _ _ (hshown _ (by decide)) (hshown _ (by decide)))
      simp at this
    | none =>
      have htail : tailOf (opening scheme user) ≠ [] := fun hnil => hshielded ⟨hnil, hclosing⟩
      have hshown (p : List Char) (hp : '/' ∉ p) := tryNew_of_no_scheme hcut hclosing hp
      have := ConfigError.missingScheme.inj (h _ _ (hshown _ (by decide)) (hshown _ (by decide)))
      rw [List.append_assoc, List.append_assoc, redacted_append htail,
        redacted_append htail] at this
      simp at this

/-- A query cuts the password off, so the address is refused for another reason than the password:
for what stands before it as host and port, or for a path that does not start with a slash. -/
theorem exists_error_of_query (host : List Char) {s rest : List Char}
    (hcut : Text.cut schemeSeparator (opening scheme user) = some (s, rest))
    (hscheme : schemeSecure (s.map Char.toLower) ≠ none) (htail : tailOf rest = [])
    (hhost : authorityOf rest ≠ []) (hat : '@' ∉ authorityOf rest) :
    ∃ e, ServerAddress.tryNew (credentialed scheme user ['?'] host) = .error e ∧
      e ≠ .addressHasUserinfo := by
  have hauthority : authorityOf (rest ++ (['?'] ++ closing host)) = authorityOf rest :=
    authorityOf_append_cons (by decide)
  cases hcheck : checkAuthority (authorityOf rest) with
  | error e =>
    refine ⟨e, tryNew_of_host (cut_credentialed host hcut _) hscheme (by rwa [hauthority])
      (by rwa [hauthority]) (.inl (by rwa [hauthority])), ?_⟩
    rintro rfl
    exact checkAuthority_ne_userinfo _ hcheck
  | ok u =>
    have hpath : checkPath (tailOf (rest ++ (['?'] ++ closing host))) =
        .error (.invalidAddressPath ('?' :: closing host)) := by
      rw [tailOf_append htail]
      exact if_pos (.inl rfl)
    refine ⟨_, tryNew_of_host (cut_credentialed host hcut _) hscheme (by rwa [hauthority])
      (by rwa [hauthority]) (.inr ⟨by rwa [hauthority], hpath⟩), ?_⟩
    rintro ⟨⟩

/-- A password that starts with a terminator is no longer in the authority, so what is shielded
from the others is not shielded from this one. -/
theorem exists_distinct_of_shielded (hbefore : ¬RefusedBefore (opening scheme user))
    (hshielded : Shielded (opening scheme user) host) :
    ∃ p q, ¬Indistinct scheme user host p q := by
  unfold Shielded at hshielded
  split at hshielded
  · next s rest hcut =>
    refine ⟨[], ['?'], fun h => ?_⟩
    have hscheme : schemeSecure (s.map Char.toLower) ≠ none := fun hnone =>
      hbefore ⟨s, rest, hcut, .inl hnone⟩
    have hat : '@' ∉ authorityOf rest := fun hat => hbefore ⟨s, rest, hcut, .inr (.inl hat)⟩
    have hrest : authorityOf rest = rest :=
      List.takeWhile_eq_self_iff.mpr (List.dropWhile_eq_nil_iff.mp hshielded)
    -- what stands before the password ends with a colon, the separator does not
    have hne : rest ≠ [] := by
      rintro rfl
      have hlast := congrArg List.getLast? (Text.eq_of_cut hcut)
      simp [opening_eq, schemeSeparator] at hlast
    have hempty := tryNew_of_password host hcut hscheme hshielded (p := []) rfl
    obtain ⟨e, he, hne'⟩ :=
      exists_error_of_query host hcut hscheme hshielded (by rwa [hrest]) hat
    exact hne' (h _ _ hempty he).symm
  · next hcut =>
    obtain ⟨-, hclosing⟩ := hshielded
    refine ⟨['?', 'a'], ['?', 'b'], fun h => ?_⟩
    have hshown (c : Char) (hc : '/' ∉ ['?', c]) := tryNew_of_no_scheme hcut hclosing hc
    have := ConfigError.missingScheme.inj (h _ _ (hshown _ (by decide)) (hshown _ (by decide)))
    have htail : tailOf (opening scheme user ++ ['?']) ≠ [] := by
      rw [tailOf_append_cons (by decide)]
      simp
    have hsplit (c : Char) : opening scheme user ++ ['?', c] ++ closing host =
        opening scheme user ++ ['?'] ++ c :: closing host := by simp
    rw [hsplit, hsplit, redacted_append htail, redacted_append htail] at this
    simp at this

end

/-- **Refusals of an address with a credential**: no two passwords are told apart exactly if the
address is refused for what stands before them, and no two without a `/`, `?` or `#` exactly if it
is, or if they are shielded. -/
theorem refusals_indistinct (scheme : Option (List Char)) (user host : List Char) :
    ((∀ p q, Indistinct scheme user host p q) ↔ RefusedBefore (opening scheme user)) ∧
      ((∀ p q, tailOf p = [] → tailOf q = [] → Indistinct scheme user host p q) ↔
        RefusedBefore (opening scheme user) ∨ Shielded (opening scheme user) host) := by
  have hrefused (h : RefusedBefore (opening scheme user)) (p q : List Char) :
      Indistinct scheme user host p q := fun e e' he he' => by
    obtain ⟨e₀, h₀⟩ := h.exists_error host
    exact Except.error.inj ((he.symm.trans (h₀ p)).trans ((h₀ q).symm.trans he'))
  refine ⟨⟨fun h => ?_, hrefused⟩, fun h => ?_, ?_⟩
  · by_contra hbefore
    by_cases hshielded : Shielded (opening scheme user) host
    · obtain ⟨p, q, hpq⟩ := exists_distinct_of_shielded hbefore hshielded
      exact hpq (h p q)
    · exact not_indistinct_of_not_shielded hbefore hshielded (h _ _)
  · by_contra hnot
    obtain ⟨hbefore, hshielded⟩ := not_or.mp hnot
    exact not_indistinct_of_not_shielded hbefore hshielded (h _ _ rfl rfl)
  · rintro (hbefore | hshielded) p q hp hq
    · exact hrefused hbefore p q
    · intro e e' he he'
      obtain ⟨e₀, h₀⟩ := hshielded.exists_error
      exact Except.error.inj ((he.symm.trans (h₀ p hp)).trans ((h₀ q hq).symm.trans he'))

/-- The port of the authority that ends at a `/` in the password is shown. -/
theorem refusal_shows_password :
    ServerAddress.tryNew (credentialed (some "wss".toList) "alice".toList "hunter2/x".toList
        "h".toList) = .error (.invalidPort "hunter2".toList) ∧
      ServerAddress.tryNew (credentialed (some "wss".toList) "alice".toList "secret/x".toList
        "h".toList) = .error (.invalidPort "secret".toList) ∧
      ¬Indistinct (some "wss".toList) "alice".toList "h".toList "hunter2/x".toList
        "secret/x".toList := by
  have hfirst : ServerAddress.tryNew (credentialed (some "wss".toList) "alice".toList
      "hunter2/x".toList "h".toList) = .error (.invalidPort "hunter2".toList) := by decide
  have hsecond : ServerAddress.tryNew (credentialed (some "wss".toList) "alice".toList
      "secret/x".toList "h".toList) = .error (.invalidPort "secret".toList) := by decide
  exact ⟨hfirst, hsecond, fun h => absurd (h _ _ hfirst hsecond) (by decide)⟩

end Lightstreamer.Config
