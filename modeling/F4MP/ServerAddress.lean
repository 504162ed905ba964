import F4MP.Library.Decimal
import F4MP.Library.Occurrences
import F4MP.SessionModel

/-!
The addresses `SetServer` takes: a host, or a host and a port when there is exactly one
colon.  A bad address changes nothing, and the address it prints is one it takes.
-/

namespace F4MP.ServerAddress

open F4MP.Types
open F4MP.ServerConsole
open F4MP.SessionModel
open F4MP.Library.Decimal
open F4MP.Library.Occurrences

def serverAddress (session : Session) : Bytes :=
  session.config.host ++ ascii ":" ++ ascii (toString session.config.port.toNat)

def colon : UInt8 := 0x3A

/-- The addresses there are, with the host and the port they name. -/
inductive Address (current : UInt16) : Bytes → Bytes → UInt16 → Prop
  | host {s : Bytes} : s ≠ [] → s.count colon ≠ 1 → Address current s s current
  | hostPort {h p : Bytes} {n : Nat} : colon ∉ h → h ≠ [] → Denotes p n → 1 ≤ n → n ≤ 65535 →
      Address current (h ++ colon :: p) h (UInt16.ofNat n)

theorem fromChars_eq_some_iff (text : Bytes) (n : Nat) :
    fromChars text = some n ↔ Denotes text n ∧ n < 2 ^ 32 := by
  rw [denotes_iff, fromChars]
  constructor
  · intro h
    split at h
    next => cases h
    next hgood =>
      cases h
      simp only [Bool.or_eq_true, List.isEmpty_iff, Bool.not_eq_true', decide_eq_true_eq,
        not_or, Bool.not_eq_false, List.all_eq_true, not_le] at hgood
      exact ⟨⟨hgood.1.1, hgood.1.2, rfl⟩, hgood.2⟩
  · rintro ⟨⟨hne, hdigits, rfl⟩, hlt⟩
    rw [if_neg]
    simpa [hne] using And.intro hdigits hlt

theorem rfind_append_cons {c : UInt8} {after : Bytes} (hafter : c ∉ after) (before : Bytes) :
    rfind c (before ++ c :: after) = some before.length := by
  have hreverse : (before ++ c :: after).reverse = after.reverse ++ c :: before.reverse := by
    simp
  rw [rfind, hreverse, idxOf?_append_cons (by simpa using hafter)]
  simp

theorem rfind_eq_none {c : UInt8} {text : Bytes} (hc : c ∉ text) : rfind c text = none := by
  simp [rfind, hc]

theorem splitHostPort_of_count {s : Bytes} (hcount : s.count colon ≠ 1) (port : UInt16) :
    splitHostPort s port = some (s, port) := by
  by_cases hmem : colon ∈ s
  · obtain ⟨h, p, rfl, hfirst⟩ := List.eq_append_cons_of_mem hmem
    have hsecond : colon ∈ p := by
      by_contra hnot
      exact hcount ((count_append_cons hfirst).mpr hnot)
    obtain ⟨q, r, rfl, hlast⟩ := exists_append_cons_of_mem hsecond
    have hrfind : rfind colon (h ++ colon :: (q ++ colon :: r)) =
        some (h ++ colon :: q).length := by
      rw [← rfind_append_cons hlast]
      simp
    have hdiffers : (h ++ colon :: (q ++ colon :: r)).idxOf? colon ≠
        some (h ++ colon :: q).length := by
      rw [idxOf?_append_cons hfirst]
      simp
    rw [colon] at *
    rw [splitHostPort, hrfind]
    exact if_neg hdiffers
  · have hrfind := rfind_eq_none hmem
    rw [colon] at hrfind
    rw [splitHostPort, hrfind]

theorem splitHostPort_append_cons {h p : Bytes} (hh : colon ∉ h) (hp : colon ∉ p)
    (port : UInt16) :
    splitHostPort (h ++ colon :: p) port =
      (fromChars p).bind fun value =>
        if value = 0 ∨ value > 65535 then none else some (h, UInt16.ofNat value) := by
  have hrfind := rfind_append_cons hp h
  have hfirst := idxOf?_append_cons hh p
  have hdrop : (h ++ colon :: p).drop (h.length + 1) = p := by simp
  have htake : (h ++ colon :: p).take h.length = h := by simp
  rw [colon] at *
  rw [splitHostPort, hrfind]
  simp only [hfirst, if_true, hdrop, htake]
  cases fromChars p <;> rfl

theorem setServer_eq_some {session : Session} {s host : Bytes} {port : UInt16}
    (hsplit : splitHostPort s session.config.port = some (host, port)) (hhost : host ≠ []) :
    setServer session s =
      (true, { session with config := { session.config with host, port } }) := by
  rw [setServer, hsplit]
  exact if_neg (by simpa using hhost)

theorem setServer_address {session : Session} {s host : Bytes} {port : UInt16}
    (haddress : Address session.config.port s host port) :
    setServer session s =
      (true, { session with config := { session.config with host, port } }) := by
  cases haddress with
  | host hne hcount => exact setServer_eq_some (splitHostPort_of_count hcount _) hne
  | hostPort hh hne hdenotes hlow hhigh =>
      rename_i p n
      have hp : colon ∉ p := hdenotes.not_mem (by decide)
      have hread := (fromChars_eq_some_iff p n).mpr ⟨hdenotes, by omega⟩
      refine setServer_eq_some ?_ hne
      rw [splitHostPort_append_cons hh hp, hread, Option.bind_some, if_neg (by omega)]

theorem setServer_refused {session : Session} {s : Bytes}
    (hno : ¬∃ host port, Address session.config.port s host port) :
    setServer session s = (false, session) := by
  by_cases hcount : s.count colon = 1
  · have hmem : colon ∈ s := List.count_pos_iff.mp (by omega)
    obtain ⟨h, p, rfl, hh⟩ := List.eq_append_cons_of_mem hmem
    have hp := (count_append_cons hh).mp hcount
    rw [setServer, splitHostPort_append_cons hh hp]
    cases hread : fromChars p with
    | none => rfl
    | some n =>
        obtain ⟨hdenotes, -⟩ := (fromChars_eq_some_iff p n).mp hread
        rw [Option.bind_some]
        by_cases hrange : n = 0 ∨ n > 65535
        · rw [if_pos hrange]
        · rw [if_neg hrange]
          by_cases hhost : h = []
          · exact if_pos (by simpa using hhost)
          · exact absurd ⟨h, _, .hostPort hh hhost hdenotes (by omega) (by omega)⟩ hno
  · have hempty : s = [] := by
      by_contra hne
      exact hno ⟨s, _, .host hne hcount⟩
    subst hempty
    rw [setServer, splitHostPort_of_count hcount]
    rfl

/-- `SetServer` takes exactly the addresses, and changes the host and the port to what
the address says and nothing else; what it refuses leaves the session as it is; and what
`ServerAddress` prints of a colon-free host it reads back. -/
theorem setServer_spec (session : Session) (s : Bytes) :
    (∀ after, setServer session s = (true, after) ↔
      ∃ host port, Address session.config.port s host port ∧
        after = { session with config := { session.config with host, port } }) ∧
    ((setServer session s).1 = false → (setServer session s).2 = session) ∧
    (session.config.host ≠ [] → colon ∉ session.config.host → session.config.port ≠ 0 →
      setServer session (serverAddress session) = (true, session)) := by
  refine ⟨fun after => ⟨fun htaken => ?_, ?_⟩, fun hrefused => ?_, fun hne hhost hport => ?_⟩
  · by_cases haddress : ∃ host port, Address session.config.port s host port
    · obtain ⟨host, port, haddress⟩ := haddress
      rw [setServer_address haddress] at htaken
      exact ⟨host, port, haddress, (Prod.mk.inj htaken).2.symm⟩
    · rw [setServer_refused haddress] at htaken
      cases htaken
  · rintro ⟨host, port, haddress, rfl⟩
    exact setServer_address haddress
  · by_cases haddress : ∃ host port, Address session.config.port s host port
    · obtain ⟨host, port, haddress⟩ := haddress
      rw [setServer_address haddress] at hrefused
      cases hrefused
    · rw [setServer_refused haddress]
  · have hpositive : session.config.port.toNat ≠ 0 := fun hzero => hport (UInt16.toNat_inj.mp hzero)
    have hlt := session.config.port.toNat_lt
    have haddress : Address session.config.port
        (session.config.host ++ colon :: numeral session.config.port.toNat) session.config.host
        (UInt16.ofNat session.config.port.toNat) :=
      .hostPort hhost hne (denotes_numeral session.config.port.toNat) (by omega) (by omega)
    have hprinted : serverAddress session =
        session.config.host ++ colon :: numeral session.config.port.toNat := by
      rw [serverAddress, List.append_assoc, numeral, bytesOf, ascii, ascii,
        Nat.toString_eq_ofList_toDigits]
      simp [colon]
    rw [hprinted, setServer_address haddress, UInt16.ofNat_toNat]

end F4MP.ServerAddress
