import Mathlib.Logic.Basic

/-!
# Addresses as text

The strings of Go's `net` package that name an endpoint: `SplitHostPort` with its rules for brackets and its errors,
`strconv.Itoa`, and the textual forms of IP addresses. A string is the list of its characters, all of them ASCII here.

`splitHostPort_join_iff` says which hosts survive when they are joined with a port by a colon, without brackets around them.
-/

namespace Net

/-! ## Host and port -/

/-- An `AddrError`: what is wrong, and the address. -/
structure AddrErr where
  err : String
  addr : List Char
deriving DecidableEq, Repr

/-- `last`: the index of the last character like this. -/
def last : List Char → Char → Option Nat
  | [], _ => none
  | c :: s, b =>
    match last s b with
    | some i => some (i + 1)
    | none => if c = b then some 0 else none

/-- The end of `SplitHostPort`: the host is found, and there may be no bracket behind `j` and `k`. -/
def splitPort (hostport : List Char) (i : Nat) (host : List Char) (j k : Nat) : Except AddrErr (List Char × List Char) :=
  if '[' ∈ hostport.drop j then .error ⟨"unexpected '[' in address", hostport⟩
  else if ']' ∈ hostport.drop k then .error ⟨"unexpected ']' in address", hostport⟩
  else .ok (host, hostport.drop (i + 1))

/-- `SplitHostPort`: the port starts behind the last colon; a host with a colon in it stands in brackets. -/
def splitHostPort (hostport : List Char) : Except AddrErr (List Char × List Char) :=
  match last hostport ':' with
  | none => .error ⟨"missing port in address", hostport⟩
  | some i =>
    if hostport.head? = some '[' then
      match hostport.idxOf? ']' with
      | none => .error ⟨"missing ']' in address", hostport⟩
      | some stop =>
        if stop + 1 = hostport.length then .error ⟨"missing port in address", hostport⟩
        else if stop + 1 = i then splitPort hostport i ((hostport.take stop).drop 1) 1 (stop + 1)
        else if hostport[stop + 1]? = some ':' then .error ⟨"too many colons in address", hostport⟩
        else .error ⟨"missing port in address", hostport⟩
    else if ':' ∈ hostport.take i then .error ⟨"too many colons in address", hostport⟩
    else splitPort hostport i (hostport.take i) 0 0

/-- `strconv.Itoa` -/
def itoa : Int → List Char
  | .ofNat n => Nat.toDigits 10 n
  | .negSucc n => '-' :: Nat.toDigits 10 (n + 1)

/-- The number that decimal digits stand for. -/
def decimal (s : List Char) : Option Nat :=
  if s ≠ [] ∧ s.all Char.isDigit = true then some (Nat.ofDigitChars 10 s 0) else none

/-! ## IP addresses -/

/-- A hexadecimal digit. -/
def isHexDigit (c : Char) : Bool := c.isDigit || ('a' ≤ c && c ≤ 'f') || ('A' ≤ c && c ≤ 'F')

/-- An IPv4 address: four decimal numbers up to 255 with dots between them. -/
def IPv4Text (s : List Char) : Prop :=
  ∃ ns : List (List Char), ns.length = 4 ∧ (∀ n ∈ ns, ∃ k, k < 256 ∧ decimal n = some k) ∧ s = ['.'].intercalate ns

/-- A group of an IPv6 address: one to four hexadecimal digits. -/
def HexGroup (g : List Char) : Prop := 1 ≤ g.length ∧ g.length ≤ 4 ∧ g.all isHexDigit = true

/-- Texts that stand for `n` groups of an IPv6 address: `n` groups, or two less and an IPv4 address behind them. -/
def Groups (gs : List (List Char)) (n : Nat) : Prop :=
  ((∀ g ∈ gs, HexGroup g) ∧ gs.length = n) ∨
    ∃ hs t, gs = hs ++ [t] ∧ (∀ g ∈ hs, HexGroup g) ∧ IPv4Text t ∧ hs.length + 2 = n

/-- An IPv6 address: eight groups with colons between them, or at most seven, with two colons in the place of the others,
which are zero. -/
def IPv6Text (s : List Char) : Prop :=
  (∃ gs, Groups gs 8 ∧ s = [':'].intercalate gs) ∨
    ∃ ls rs m, (∀ g ∈ ls, HexGroup g) ∧ Groups rs m ∧ ls.length + m ≤ 7 ∧
      s = [':'].intercalate ls ++ [':', ':'] ++ [':'].intercalate rs

/-- An IP address in its textual form. -/
def IPText (s : List Char) : Prop := IPv4Text s ∨ IPv6Text s

/-! ## What survives -/

/-- A text without the character has no last one. -/
theorem last_eq_none {s : List Char} {b : Char} (h : b ∉ s) : last s b = none := by
  induction s with
  | nil => rfl
  | cons c s ih =>
    simp only [List.mem_cons, not_or] at h
    simp [last, ih h.2, Ne.symm h.1]

/-- The last character like this, when none follows. -/
theorem last_append {s t : List Char} {b : Char} (h : b ∉ t) : last (s ++ b :: t) b = some s.length := by
  induction s with
  | nil => simp [last, last_eq_none h]
  | cons c s ih => simp [last, ih]

/-- A text without colons and brackets. -/
def Plain (s : List Char) : Prop := ':' ∉ s ∧ '[' ∉ s ∧ ']' ∉ s

/-- When the end of `SplitHostPort` is reached without a bracket in front, a result means that there are no brackets. -/
theorem splitPort_ok {hostport host : List Char} {i : Nat} {r : List Char × List Char}
    (h : splitPort hostport i host 0 0 = .ok r) : '[' ∉ hostport ∧ ']' ∉ hostport ∧ r = (host, hostport.drop (i + 1)) := by
  unfold splitPort at h
  split at h
  · cases h
  · rename_i hopen
    split at h
    · cases h
    · rename_i hclose
      cases h
      exact ⟨by simpa using hopen, by simpa using hclose, rfl⟩

/-- A host in brackets is returned without them. -/
theorem splitPort_length {hostport host : List Char} {i stop : Nat} {r : List Char × List Char} (hi : stop + 1 = i)
    (hlt : i < hostport.length) (hhost : host = (hostport.take stop).drop 1)
    (h : splitPort hostport i host 1 (stop + 1) = .ok r) :
    r.1.length < i := by
  unfold splitPort at h
  split at h
  · cases h
  · split at h
    · cases h
    · cases h
      simp only [hhost, List.length_drop, List.length_take]
      omega

/-- Joined by a colon with a plain port, exactly the plain hosts are split off again, and so is the port. -/
theorem splitHostPort_join_iff {host port p : List Char} (hport : Plain port) :
    splitHostPort (host ++ ':' :: port) = .ok (host, p) ↔ Plain host ∧ p = port := by
  have hlast : last (host ++ ':' :: port) ':' = some host.length := last_append hport.1
  have htake : (host ++ ':' :: port).take host.length = host := List.take_left
  have hdrop : (host ++ ':' :: port).drop (host.length + 1) = port := by
    rw [List.append_cons, List.drop_left' (by simp)]
  unfold splitHostPort
  simp only [hlast, htake]
  constructor
  · intro h
    split at h
    · -- a result in brackets is shorter than the host
      split at h
      · cases h
      · split at h
        · cases h
        · split at h
          · rename_i hstop
            have hlt := splitPort_length hstop (by simp) rfl h
            exact absurd hlt (Nat.lt_irrefl _)
          · split at h <;> cases h
    · split at h
      · cases h
      · rename_i hcolon
        obtain ⟨hopen, hclose, hp⟩ := splitPort_ok h
        rw [hdrop, Prod.mk.injEq] at hp
        exact ⟨⟨hcolon, fun hm => hopen (List.mem_append_left _ hm), fun hm => hclose (List.mem_append_left _ hm)⟩, hp.2⟩
  · rintro ⟨⟨hcolon, hopen, hclose⟩, hp⟩
    have hhead : (host ++ ':' :: port).head? ≠ some '[' := by
      cases host with
      | nil => simp
      | cons c host =>
        simp only [List.mem_cons, not_or] at hopen
        simpa using Ne.symm hopen.1
    rw [if_neg hhead, if_neg hcolon]
    simp [splitPort, hopen, hclose, hport.2.1, hport.2.2, hdrop, hp]

/-! ## Which texts are plain -/

theorem plain_of_digits {s : List Char} (h : ∀ c ∈ s, c.isDigit = true) : Plain s := by
  refine ⟨fun hm => ?_, fun hm => ?_, fun hm => ?_⟩ <;> exact absurd (h _ hm) (by decide)

theorem plain_append {s t : List Char} (hs : Plain s) (ht : Plain t) : Plain (s ++ t) := by
  simp [Plain, hs.1, hs.2.1, hs.2.2, ht.1, ht.2.1, ht.2.2]

/-- Plain texts with a plain separator between them. -/
theorem plain_intercalate {sep : List Char} (hsep : Plain sep) {ss : List (List Char)} (h : ∀ s ∈ ss, Plain s) :
    Plain (sep.intercalate ss) := by
  induction ss with
  | nil => simp [Plain]
  | cons s ss ih =>
    have hs := h s List.mem_cons_self
    have hss := ih fun t ht => h t (List.mem_cons_of_mem s ht)
    cases ss with
    | nil => simpa using hs
    | cons t ss =>
      have hcons : sep.intercalate (s :: t :: ss) = s ++ (sep ++ sep.intercalate (t :: ss)) := by simp [List.intercalate]
      rw [hcons]
      exact plain_append hs (plain_append hsep hss)

/-- A text that stands for a number is a row of digits. -/
theorem digits_of_decimal {s : List Char} {n : Nat} (h : decimal s = some n) : ∀ c ∈ s, c.isDigit = true := by
  unfold decimal at h
  split at h
  · rename_i hs
    exact List.all_eq_true.mp hs.2
  · cases h

/-- The text of a number that is not negative is a row of digits, and stands for it. -/
theorem itoa_digits {n : Int} (h : 0 ≤ n) : Plain (itoa n) ∧ decimal (itoa n) = some n.toNat := by
  obtain ⟨k, rfl⟩ := Int.eq_ofNat_of_zero_le h
  have hdigits : ∀ c ∈ Nat.toDigits 10 k, c.isDigit = true := fun c hc =>
    Nat.isDigit_of_mem_toDigits (by decide) (by decide) hc
  refine ⟨plain_of_digits hdigits, ?_⟩
  have hd : decimal (Nat.toDigits 10 k) = some (Nat.ofDigitChars 10 (Nat.toDigits 10 k) 0) :=
    if_pos ⟨Nat.toDigits_ne_nil, List.all_eq_true.mpr hdigits⟩
  rw [Nat.ofDigitChars_ten_toDigits] at hd
  exact hd

/-- An IPv4 address is plain. -/
theorem IPv4Text.plain {s : List Char} (h : IPv4Text s) : Plain s := by
  obtain ⟨ns, -, hns, rfl⟩ := h
  refine plain_intercalate (by simp [Plain]) ?_
  intro n hn
  obtain ⟨k, -, hk⟩ := hns n hn
  exact plain_of_digits (digits_of_decimal hk)

/-- Two texts with a separator between them. -/
theorem separator_mem {gs : List (List Char)} (b : Char) (h : 2 ≤ gs.length) : b ∈ [b].intercalate gs := by
  cases gs with
  | nil => simp at h
  | cons g gs =>
    cases gs with
    | nil => simp at h
    | cons g' gs => simp [List.intercalate]

/-- An IPv6 address has a colon in it. -/
theorem IPv6Text.colon {s : List Char} (h : IPv6Text s) : ':' ∈ s := by
  rcases h with ⟨gs, hgs, rfl⟩ | ⟨ls, rs, m, -, -, -, rfl⟩
  · refine separator_mem ':' ?_
    rcases hgs with ⟨-, hlen⟩ | ⟨hs, t, rfl, -, -, hlen⟩
    · omega
    · rw [List.length_append, List.length_singleton]
      omega
  · simp

/-- An IP address is plain exactly if it is an IPv4 address. -/
theorem IPText.plain_iff {s : List Char} (h : IPText s) : Plain s ↔ IPv4Text s := by
  refine ⟨?_, IPv4Text.plain⟩
  intro hp
  rcases h with h4 | h6
  · exact h4
  · exact absurd h6.colon hp.1

end Net
