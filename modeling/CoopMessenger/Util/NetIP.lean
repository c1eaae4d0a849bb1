import CoopMessenger.Library.Json
import CoopMessenger.Util.Text

/-!
# IP addresses

The addresses of the standard library and their texts: dotted decimals for IPv4,
groups of hexadecimal digits with the longest run of zeros left out for IPv6, and
dotted decimals behind a fixed start for an IPv6 address that is mapped from IPv4.

**Results.**
* `parseAddr_toText`: the text of an address is read back as the address.
* `toText_injective`: different addresses have different texts.
-/

namespace CoopMessenger
namespace Util
namespace NetIP

open Library.Json (hexValue ofHex)

section Model

/-- A valid address; an IPv6 address without a zone has an empty one. -/
inductive Addr where
  | v4 (bits : BitVec 32)
  | v6 (bits : BitVec 128) (zone : List Char)
deriving DecidableEq, Repr

/-- `netip.IPv4Unspecified` -/
def ipv4Unspecified : Addr :=
  .v4 0

/-- Whether an IPv6 address is mapped from IPv4. -/
def is4In6 (bits : BitVec 128) : Bool :=
  bits >>> 32 == 0xffff

/-- The IPv4 address of a mapped one. -/
def unmapped (bits : BitVec 128) : BitVec 32 :=
  bits.setWidth 32

/-- The digits of a number in a base, from the highest to the lowest. -/
def digits
    (base : Nat) :
    Nat → Nat → List Nat
  | 0, _ => []
  | n + 1, x => digits base n (x / base) ++ [x % base]

/-- The number that digits denote. -/
def ofDigits
    (base : Nat)
    (ds : List Nat) : Nat :=
  ds.foldl (fun n d => base * n + d) 0

/-- Dotted decimals. -/
def octetsText (octets : List Nat) : List Char :=
  ['.'].intercalate (octets.map (Nat.toDigits 10))

/-- Hexadecimal numbers between colons. -/
def hexText (groups : List Nat) : List Char :=
  [':'].intercalate (groups.map (Nat.toDigits 16))

/-- Where the first longest run of at least two zero groups starts and ends. -/
def zeroRun (groups : List Nat) : Nat × Nat :=
  (List.range 8).foldl
    (fun run i =>
      let j := i + ((groups.drop i).takeWhile (· == 0)).length
      if 2 ≤ j - i ∧ run.2 - run.1 < j - i then (i, j) else run)
    (255, 255)

def groupsText (groups : List Nat) : List Char :=
  match zeroRun groups with
  | (start, stop) =>
      if start < 8 then
        hexText (groups.take start) ++ ':' :: ':' :: hexText (groups.drop stop)
      else
        hexText groups

/-- The part of the text of an IPv6 address before the zone. -/
def addressText (bits : BitVec 128) : List Char :=
  if is4In6 bits then
    "::ffff:".toList ++ octetsText (digits 256 4 (unmapped bits).toNat)
  else
    groupsText (digits 65536 8 bits.toNat)

/-- `Addr.String` -/
def Addr.toText :
    Addr → List Char
  | .v4 bits => octetsText (digits 256 4 bits.toNat)
  | .v6 bits zone => addressText bits ++ (if zone = [] then [] else '%' :: zone)

/-- One to three digits without a leading zero, at most 255. -/
def isOctet (field : List Char) : Bool :=
  !field.isEmpty && field.all Char.isDigit &&
    (field.head? != some '0' || field.length == 1) && decide (decimal field ≤ 255)

/-- The four numbers of dotted decimals. -/
def parseOctets (s : List Char) : Option (List Nat) :=
  let fields := s.splitOn '.'
  if fields.length = 4 ∧ fields.all isOctet then
    some (fields.map decimal)
  else
    none

def parseIPv4 (s : List Char) : Option Addr :=
  (parseOctets s).map fun octets => .v4 (BitVec.ofNat 32 (ofDigits 256 octets))

def isHexDigit (c : Char) : Bool :=
  (hexValue c).isSome

/--
Reads up to so many groups after the ones read before, where the groups that were
left out start at `ellipsis`; dotted decimals stand for the last two groups.
-/
def parseGroups :
    Nat → List Char → List Nat → Option Nat →
      Option (List Nat × Option Nat × List Char)
  | 0, s, groups, ellipsis => some (groups, ellipsis, s)
  | n + 1, s, groups, ellipsis =>
      let hex := s.takeWhile isHexDigit
      let read := groups ++ [ofHex (hex.filterMap hexValue)]
      if hex = [] ∨ 4 < hex.length then
        none
      else
        match s.dropWhile isHexDigit with
        | [] => some (read, ellipsis, [])
        | '.' :: _ =>
            if (ellipsis = none ∧ groups.length ≠ 6) ∨ 6 < groups.length then
              none
            else
              (parseOctets s).map fun octets =>
                (groups ++ digits 65536 2 (ofDigits 256 octets), ellipsis, [])
        | [':'] => none
        | ':' :: ':' :: rest =>
            if ellipsis.isSome then
              none
            else if rest = [] then
              some (read, some read.length, [])
            else
              parseGroups n rest read (some read.length)
        | ':' :: rest => parseGroups n rest read ellipsis
        | _ => none

/-- The groups that were left out are zero, and there is at least one. -/
def expand :
    List Nat × Option Nat × List Char → Option (List Nat)
  | (groups, none, []) => if groups.length = 8 then some groups else none
  | (groups, some k, []) =>
      if groups.length < 8 then
        some (groups.take k ++ List.replicate (8 - groups.length) 0 ++ groups.drop k)
      else
        none
  | _ => none

def parseHextets (s : List Char) : Option (List Nat) :=
  match s with
  | [':', ':'] => some (List.replicate 8 0)
  | ':' :: ':' :: rest => (parseGroups 8 rest [] (some 0)).bind expand
  | s => (parseGroups 8 s [] none).bind expand

def parseIPv6 (s : List Char) : Option Addr :=
  let zone := s.dropWhile (· != '%')
  if zone.length = 1 then
    none
  else
    (parseHextets (s.takeWhile (· != '%'))).map fun groups =>
      .v6 (BitVec.ofNat 128 (ofDigits 65536 groups)) zone.tail

/-- `netip.ParseAddr` -/
def parseAddr (s : List Char) : Option Addr :=
  match s.find? (fun c => c == '.' || c == ':' || c == '%') with
  | some '.' => parseIPv4 s
  | some ':' => parseIPv6 s
  | _ => none

/-- A valid network: an address and the length of its prefix. -/
inductive Prefix where
  | v4 (bits : BitVec 32) (len : Fin 33)
  | v6 (bits : BitVec 128) (len : Fin 129)
deriving DecidableEq, Repr

/-- `Prefix.Contains`; no network contains an address with a zone. -/
def Prefix.contains :
    Prefix → Addr → Bool
  | .v4 net len, .v4 bits => (bits ^^^ net) >>> (32 - len.val) == 0
  | .v6 net len, .v6 bits [] => (bits ^^^ net) >>> (128 - len.val) == 0
  | _, _ => false

/-- `netip.ParseAddrPort`: an IPv6 address stands in brackets, an IPv4 address does not. -/
def parseAddrPort (s : List Char) : Option (Addr × Nat) :=
  if ':' ∉ s then
    none
  else
    let host := (s.rdropWhile (· != ':')).dropLast
    let port := s.rtakeWhile (· != ':')
    if host = [] ∨ port = [] ∨ ¬port.all Char.isDigit ∨ 65536 ≤ decimal port then
      none
    else
      match host with
      | '[' :: inner =>
          if inner.getLast? = some ']' then
            match parseAddr inner.dropLast with
            | some (.v6 bits zone) => some (.v6 bits zone, decimal port)
            | _ => none
          else
            none
      | host =>
          match parseAddr host with
          | some (.v4 bits) => some (.v4 bits, decimal port)
          | _ => none

end Model

section Digits

variable {base : Nat}

theorem length_digits
    (n x : Nat) :
    (digits base n x).length = n := by
  induction n generalizing x with
  | zero =>
      rfl
  | succ n ih =>
      simp [digits, ih]

theorem lt_of_mem_digits
    (hbase : 0 < base)
    {n x d : Nat}
    (hd : d ∈ digits base n x) :
    d < base := by
  induction n generalizing x with
  | zero =>
      simp [digits] at hd
  | succ n ih =>
      rcases List.mem_append.mp hd with hd | hd
      · exact ih hd
      · rw [List.mem_singleton.mp hd]
        exact Nat.mod_lt _ hbase

theorem ofDigits_concat
    (ds : List Nat)
    (d : Nat) :
    ofDigits base (ds ++ [d]) = base * ofDigits base ds + d := by
  simp [ofDigits]

/-- So many digits determine the number up to that power of the base. -/
theorem ofDigits_digits
    (n x : Nat) :
    ofDigits base (digits base n x) = x % base ^ n := by
  induction n generalizing x with
  | zero =>
      simp [digits, ofDigits, Nat.mod_one]
  | succ n ih =>
      rw [digits, ofDigits_concat, ih, Nat.pow_succ', Nat.mod_mul]
      omega

/-- The characters of a number are digits of its base. -/
theorem exists_digitChar
    (hbase : 1 < base)
    {n : Nat} {c : Char}
    (hc : c ∈ Nat.toDigits base n) :
    ∃ d < base, c = d.digitChar := by
  induction n using Nat.strongRecOn with
  | ind n ih =>
      rw [Nat.toDigits_eq_if hbase] at hc
      split at hc
      · next hn =>
          exact ⟨n, hn, List.mem_singleton.mp hc⟩
      · next hn =>
          rcases List.mem_append.mp hc with hc | hc
          · exact ih (n / base) (Nat.div_lt_self (by omega) hbase) hc
          · exact ⟨n % base, Nat.mod_lt _ (by omega), List.mem_singleton.mp hc⟩

theorem isHexDigit_of_mem
    {n : Nat} {c : Char}
    (hc : c ∈ Nat.toDigits 16 n) :
    isHexDigit c = true := by
  have hdigit : ∀ d < 16, isHexDigit d.digitChar = true := by
    decide
  obtain ⟨d, hd, rfl⟩ := exists_digitChar (by decide) hc
  exact hdigit d hd

theorem isHexDigit_of_isDigit
    {c : Char}
    (hc : c.isDigit = true) :
    isHexDigit c = true := by
  simp [isHexDigit, Library.Json.hexValue, hc]

theorem ofHex_toDigits
    (n : Nat) :
    ofHex ((Nat.toDigits 16 n).filterMap hexValue) = n := by
  have hdigit : ∀ d < 16, hexValue d.digitChar = some d := by
    decide
  induction n using Nat.strongRecOn with
  | ind n ih =>
      rw [Nat.toDigits_eq_if (by decide)]
      split
      · next hn =>
          simp [hdigit n hn, ofHex]
      · have hmod : n % 16 < 16 := Nat.mod_lt _ (by decide)
        have hdiv := ih (n / 16) (by omega)
        simp only [ofHex] at hdiv
        simp only [List.filterMap_append, List.filterMap_cons, hdigit _ hmod,
          List.filterMap_nil, ofHex, List.foldl_append, hdiv, List.foldl_cons,
          List.foldl_nil]
        omega

end Digits

section Octets

variable {octets : List Nat}

theorem isOctet_toDigits
    {n : Nat}
    (hn : n < 256) :
    isOctet (Nat.toDigits 10 n) = true := by
  have hall : ∀ n < 256, isOctet (Nat.toDigits 10 n) = true := by
    decide +kernel
  exact hall n hn

theorem notMem_toDigits
    {n : Nat} {c : Char}
    (hc : c.isDigit = false) :
    c ∉ Nat.toDigits 10 n := by
  intro hmem
  simp [Nat.isDigit_of_mem_toDigits (by decide) (by decide) hmem] at hc

theorem splitOn_octetsText
    (hne : octets ≠ []) :
    (octetsText octets).splitOn '.' = octets.map (Nat.toDigits 10) := by
  refine List.splitOn_intercalate '.' (fun text htext => ?_) (by simpa using hne)
  obtain ⟨n, -, rfl⟩ := List.mem_map.mp htext
  exact notMem_toDigits (by decide)

/-- Dotted decimals are read back. -/
theorem parseOctets_octetsText
    (hlength : octets.length = 4)
    (hlt : ∀ n ∈ octets, n < 256) :
    parseOctets (octetsText octets) = some octets := by
  have hne : octets ≠ [] := by
    rintro rfl
    simp at hlength
  have hall : (octets.map (Nat.toDigits 10)).all isOctet = true := by
    rw [List.all_map, List.all_eq_true]
    exact fun n hn => isOctet_toDigits (hlt n hn)
  have hdecimal : (octets.map (Nat.toDigits 10)).map decimal = octets := by
    rw [List.map_map]
    refine List.map_id'' (fun n => ?_) octets
    exact Nat.ofDigitChars_ten_toDigits
  rw [parseOctets, splitOn_octetsText hne, if_pos ⟨by simpa using hlength, hall⟩,
    hdecimal]

end Octets

section Groups

variable {g n : Nat} {groups read : List Nat} {ellipsis : Option Nat} {rest : List Char}

theorem takeWhile_toDigits
    (g : Nat)
    (rest : List Char)
    (hrest : ∀ c, rest.head? = some c → isHexDigit c = false) :
    (Nat.toDigits 16 g ++ rest).takeWhile isHexDigit = Nat.toDigits 16 g ∧
      (Nat.toDigits 16 g ++ rest).dropWhile isHexDigit = rest := by
  have hall : ∀ c ∈ Nat.toDigits 16 g, isHexDigit c = true :=
    fun c hc => isHexDigit_of_mem hc
  cases rest with
  | nil =>
      rw [List.append_nil]
      exact ⟨List.takeWhile_eq_self_iff.mpr hall, List.dropWhile_eq_nil_iff.mpr hall⟩
  | cons c rest =>
      have hc := hrest c rfl
      rw [List.takeWhile_append_of_pos hall, List.dropWhile_append_of_pos hall]
      simp [hc]

theorem length_toDigits_le
    (hg : g < 65536) :
    ¬(Nat.toDigits 16 g = [] ∨ 4 < (Nat.toDigits 16 g).length) := by
  rintro (hnil | hlong)
  · simp at hnil
  · have hshort := (Nat.length_toDigits_le_iff (by decide) (by decide)).mpr
      (show g < 16 ^ 4 by omega)
    omega

/-- A group at the end is the last one. -/
theorem parseGroups_end
    (hg : g < 65536) :
    parseGroups (n + 1) (Nat.toDigits 16 g) read ellipsis =
      some (read ++ [g], ellipsis, []) := by
  obtain ⟨htake, hdrop⟩ := takeWhile_toDigits g [] (by simp)
  rw [List.append_nil] at htake hdrop
  simp only [parseGroups, htake, hdrop, if_neg (length_toDigits_le hg), ofHex_toDigits]

/-- After a group and a colon comes the next group. -/
theorem parseGroups_colon
    (hg : g < 65536)
    {c : Char}
    (hc : c ≠ ':') :
    parseGroups (n + 1) (Nat.toDigits 16 g ++ ':' :: c :: rest) read ellipsis =
      parseGroups n (c :: rest) (read ++ [g]) ellipsis := by
  obtain ⟨htake, hdrop⟩ := takeWhile_toDigits g (':' :: c :: rest)
    (by simp; decide)
  simp only [parseGroups, htake, hdrop, if_neg (length_toDigits_le hg), ofHex_toDigits]
  split <;> simp_all

/-- Two colons after a group are where groups were left out. -/
theorem parseGroups_ellipsis
    (hg : g < 65536) :
    parseGroups (n + 1) (Nat.toDigits 16 g ++ ':' :: ':' :: rest) read none =
      if rest = [] then
        some (read ++ [g], some (read ++ [g]).length, [])
      else
        parseGroups n rest (read ++ [g]) (some (read ++ [g]).length) := by
  obtain ⟨htake, hdrop⟩ := takeWhile_toDigits g (':' :: ':' :: rest)
    (by simp; decide)
  simp only [parseGroups, htake, hdrop, if_neg (length_toDigits_le hg), ofHex_toDigits]
  simp

theorem hexText_cons
    (hne : groups ≠ []) :
    hexText (g :: groups) = Nat.toDigits 16 g ++ ':' :: hexText groups := by
  cases groups with
  | nil =>
      exact absurd rfl hne
  | cons g' groups =>
      simp [hexText]

/-- The text of groups starts with a digit. -/
theorem exists_hexText
    (hne : groups ≠ []) :
    ∃ c text, hexText groups = c :: text ∧ isHexDigit c = true := by
  cases groups with
  | nil =>
      exact absurd rfl hne
  | cons g groups =>
      cases hdigits : Nat.toDigits 16 g with
      | nil =>
          simp at hdigits
      | cons c digits =>
          have hc : isHexDigit c = true :=
            isHexDigit_of_mem (hdigits ▸ List.mem_cons_self)
          cases groups with
          | nil =>
              exact ⟨c, digits, by simp [hexText, hdigits], hc⟩
          | cons g' groups =>
              exact ⟨c, digits ++ ':' :: hexText (g' :: groups),
                by rw [hexText_cons (by simp), hdigits]; rfl, hc⟩

theorem ne_colon_of_isHexDigit
    {c : Char}
    (hc : isHexDigit c = true) :
    c ≠ ':' := by
  rintro rfl
  exact absurd hc (by decide)

/-- The first of several groups is read. -/
theorem parseGroups_hexText_cons
    (hne : groups ≠ [])
    (hg : g < 65536) :
    parseGroups (n + 1) (hexText (g :: groups) ++ rest) read ellipsis =
      parseGroups n (hexText groups ++ rest) (read ++ [g]) ellipsis := by
  obtain ⟨c, text, htext, hc⟩ := exists_hexText hne
  rw [hexText_cons hne, htext, List.append_assoc, List.cons_append, List.cons_append,
    parseGroups_colon hg (ne_colon_of_isHexDigit hc)]

/-- The text of groups is read back. -/
theorem parseGroups_hexText
    (hne : groups ≠ [])
    (hn : groups.length ≤ n)
    (hlt : ∀ g ∈ groups, g < 65536) :
    parseGroups n (hexText groups) read ellipsis = some (read ++ groups, ellipsis, []) := by
  induction groups generalizing n read with
  | nil =>
      exact absurd rfl hne
  | cons g groups ih =>
      obtain ⟨n, rfl⟩ : ∃ m, n = m + 1 := ⟨n - 1, by simp at hn; omega⟩
      have hg : g < 65536 := hlt g List.mem_cons_self
      by_cases hlast : groups = []
      · subst hlast
        rw [show hexText [g] = Nat.toDigits 16 g by simp [hexText], parseGroups_end hg]
      · have hcons : parseGroups (n + 1) (hexText (g :: groups) ++ []) read ellipsis =
            parseGroups n (hexText groups ++ []) (read ++ [g]) ellipsis :=
          parseGroups_hexText_cons hlast hg
        simp only [List.append_nil] at hcons
        rw [hcons, ih hlast (by simpa using hn) fun g hg => hlt g (List.mem_cons_of_mem _ hg)]
        simp

/-- So is what stands before the groups that were left out. -/
theorem parseGroups_hexText_append
    (hne : groups ≠ [])
    (hn : groups.length ≤ n)
    (hlt : ∀ g ∈ groups, g < 65536) :
    parseGroups n (hexText groups ++ ':' :: ':' :: rest) read none =
      if rest = [] then
        some (read ++ groups, some (read ++ groups).length, [])
      else
        parseGroups (n - groups.length) rest (read ++ groups)
          (some (read ++ groups).length) := by
  induction groups generalizing n read with
  | nil =>
      exact absurd rfl hne
  | cons g groups ih =>
      obtain ⟨n, rfl⟩ : ∃ m, n = m + 1 := ⟨n - 1, by simp at hn; omega⟩
      have hg : g < 65536 := hlt g List.mem_cons_self
      by_cases hlast : groups = []
      · subst hlast
        rw [show hexText [g] = Nat.toDigits 16 g by simp [hexText],
          parseGroups_ellipsis hg]
        rfl
      · rw [parseGroups_hexText_cons hlast hg,
          ih hlast (by simpa using hn) fun g hg => hlt g (List.mem_cons_of_mem _ hg)]
        simp

end Groups

section ZeroRun

variable {groups : List Nat}

/-- The run that is left out has at least two groups, and they are zero. -/
theorem zeroRun_spec
    {start stop : Nat}
    (hrun : zeroRun groups = (start, stop))
    (hstart : start < 8) :
    start + 2 ≤ stop ∧
      groups = groups.take start ++ List.replicate (stop - start) 0 ++
        groups.drop stop := by
  have hinv : zeroRun groups = (255, 255) ∨
      ((zeroRun groups).1 + 2 ≤ (zeroRun groups).2 ∧
        groups = groups.take (zeroRun groups).1 ++
          List.replicate ((zeroRun groups).2 - (zeroRun groups).1) 0 ++
            groups.drop (zeroRun groups).2) := by
    unfold zeroRun
    refine List.foldlRecOn (motive := fun run : Nat × Nat => run = (255, 255) ∨
      (run.1 + 2 ≤ run.2 ∧ groups = groups.take run.1 ++
        List.replicate (run.2 - run.1) 0 ++ groups.drop run.2))
      (List.range 8) _ (Or.inl rfl) fun run hrun i _ => ?_
    dsimp only
    split
    · next hlong =>
        refine Or.inr ⟨by dsimp only; omega, ?_⟩
        dsimp only
        have hzeros : (groups.drop i).takeWhile (· == 0) =
            List.replicate ((groups.drop i).takeWhile (· == 0)).length 0 := by
          refine List.eq_replicate_iff.mpr ⟨rfl, fun g hg => ?_⟩
          simpa using List.mem_takeWhile_imp hg
        have hrest : groups.drop (i + ((groups.drop i).takeWhile (· == 0)).length) =
            (groups.drop i).dropWhile (· == 0) := by
          conv_lhs => rw [← List.drop_drop]
          conv_lhs =>
            arg 2
            rw [← List.takeWhile_append_dropWhile (p := (· == 0)) (l := groups.drop i)]
          exact List.drop_left
        rw [Nat.add_sub_cancel_left, ← hzeros, hrest, List.append_assoc,
          List.takeWhile_append_dropWhile, List.take_append_drop]
    · exact hrun
  rw [hrun] at hinv
  rcases hinv with h | h
  · simp only [Prod.mk.injEq] at h
    omega
  · exact h

end ZeroRun

section RoundTrip

theorem ofDigits_octets
    (bits : BitVec 32) :
    BitVec.ofNat 32 (ofDigits 256 (digits 256 4 bits.toNat)) = bits := by
  have hlt := bits.isLt
  rw [ofDigits_digits, Nat.mod_eq_of_lt (by omega), BitVec.ofNat_toNat,
    BitVec.setWidth_eq]

theorem parseOctets_bits
    (bits : BitVec 32) :
    parseOctets (octetsText (digits 256 4 bits.toNat)) =
      some (digits 256 4 bits.toNat) :=
  parseOctets_octetsText (length_digits 4 _) fun _ hn => lt_of_mem_digits (by decide) hn

theorem mem_of_mem_intercalate
    {sep c : Char} {texts : List (List Char)}
    (hc : c ∈ [sep].intercalate texts) :
    c = sep ∨ ∃ text ∈ texts, c ∈ text := by
  induction texts with
  | nil =>
      simp at hc
  | cons text texts ih =>
      cases texts with
      | nil =>
          exact Or.inr ⟨text, List.mem_cons_self, by simpa using hc⟩
      | cons text' texts =>
          simp only [List.intercalate_cons_cons, List.mem_append,
            List.mem_singleton] at hc
          rcases hc with (hc | hc) | hc
          · exact Or.inr ⟨text, List.mem_cons_self, hc⟩
          · exact Or.inl hc
          · exact (ih hc).imp_right fun ⟨t, ht, hct⟩ =>
              ⟨t, List.mem_cons_of_mem _ ht, hct⟩

theorem isHexDigit_of_mem_hexText
    {groups : List Nat} {c : Char}
    (hc : c ∈ hexText groups) :
    c = ':' ∨ isHexDigit c = true := by
  refine (mem_of_mem_intercalate hc).imp_right fun ⟨text, htext, hmem⟩ => ?_
  obtain ⟨n, -, rfl⟩ := List.mem_map.mp htext
  exact isHexDigit_of_mem hmem

/-- What holds of the digits, the colon and the dot holds of the text of an address. -/
theorem forall_mem_toText
    {p : Char → Bool}
    (hp : p ':' = true ∧ p '.' = true ∧ ∀ d < 16, p d.digitChar = true)
    {addr : Addr}
    (hzone : ∀ bits zone, addr = .v6 bits zone → zone = []) :
    ∀ c ∈ addr.toText, p c = true := by
  have hoctets : ∀ octets c, c ∈ octetsText octets → p c = true := by
    intro octets c hc
    rcases mem_of_mem_intercalate hc with rfl | ⟨text, htext, hc⟩
    · exact hp.2.1
    · obtain ⟨n, -, rfl⟩ := List.mem_map.mp htext
      obtain ⟨d, hd, rfl⟩ := exists_digitChar (by decide) hc
      exact hp.2.2 d (by omega)
  have hhex : ∀ groups c, c ∈ hexText groups → p c = true := by
    intro groups c hc
    rcases mem_of_mem_intercalate hc with rfl | ⟨text, htext, hc⟩
    · exact hp.1
    · obtain ⟨n, -, rfl⟩ := List.mem_map.mp htext
      obtain ⟨d, hd, rfl⟩ := exists_digitChar (by decide) hc
      exact hp.2.2 d hd
  intro c hc
  cases addr with
  | v4 bits =>
      exact hoctets _ c hc
  | v6 bits zone =>
      rw [hzone bits zone rfl, Addr.toText, if_pos rfl, List.append_nil, addressText] at hc
      split at hc
      · rcases List.mem_append.mp hc with hc | hc
        · have hfixed : c = ':' ∨ c = 'f' ∨ c = ':' := by
            simpa using hc
          rcases hfixed with rfl | rfl | rfl
          · exact hp.1
          · exact hp.2.2 15 (by decide)
          · exact hp.1
        · exact hoctets _ c hc
      · unfold groupsText at hc
        split at hc
        split at hc
        · rw [List.mem_append, List.mem_cons, List.mem_cons] at hc
          rcases hc with hc | rfl | rfl | hc
          · exact hhex _ c hc
          · exact hp.1
          · exact hp.1
          · exact hhex _ c hc
        · exact hhex _ c hc

/-- In the text of eight groups there are two colons, with only digits elsewhere. -/
theorem groupsText_spec
    {groups : List Nat}
    (hlength : groups.length = 8) :
    (∀ c ∈ groupsText groups, c = ':' ∨ isHexDigit c = true) ∧
      2 ≤ (groupsText groups).count ':' := by
  unfold groupsText
  split
  next start stop hrun =>
  split
  · refine ⟨fun c hc => ?_, ?_⟩
    · rw [List.mem_append, List.mem_cons, List.mem_cons] at hc
      rcases hc with hc | hc | hc | hc
      · exact isHexDigit_of_mem_hexText hc
      · exact Or.inl hc
      · exact Or.inl hc
      · exact isHexDigit_of_mem_hexText hc
    · simp
      omega
  · refine ⟨fun c hc => isHexDigit_of_mem_hexText hc, ?_⟩
    match groups, hlength with
    | g :: g' :: g'' :: groups, _ =>
        rw [hexText_cons (by simp), hexText_cons (by simp)]
        simp
        omega

/-- Dotted decimals start with a number and a dot. -/
theorem exists_octetsText
    (bits : BitVec 32) :
    ∃ n rest, n < 256 ∧
      octetsText (digits 256 4 bits.toNat) = Nat.toDigits 10 n ++ '.' :: rest := by
  have hlength : (digits 256 4 bits.toNat).length = 4 := length_digits 4 _
  have hlt : ∀ n ∈ digits 256 4 bits.toNat, n < 256 :=
    fun n hn => lt_of_mem_digits (by decide) hn
  generalize digits 256 4 bits.toNat = octets at hlength hlt ⊢
  match octets, hlength with
  | [a, b, c, d], _ =>
      exact ⟨a, octetsText [b, c, d], hlt a (by simp), by simp [octetsText]⟩

/-- Text that starts with a digit is read group by group. -/
theorem parseHextets_of_isHexDigit
    {c : Char} {s : List Char}
    (hc : isHexDigit c = true) :
    parseHextets (c :: s) = (parseGroups 8 (c :: s) [] none).bind expand := by
  have hne := ne_colon_of_isHexDigit hc
  unfold parseHextets
  split <;> simp_all

theorem parseHextets_ellipsis
    {c : Char} {s : List Char} :
    parseHextets (':' :: ':' :: c :: s) =
      (parseGroups 8 (c :: s) [] (some 0)).bind expand := by
  rfl

/-- The groups that were left out are zeros. -/
theorem parseHextets_leftOut
    {before after : List Nat}
    (hlength : before.length + after.length < 8)
    (hbefore : ∀ g ∈ before, g < 65536)
    (hafter : ∀ g ∈ after, g < 65536) :
    parseHextets (hexText before ++ ':' :: ':' :: hexText after) =
      some (before ++ List.replicate (8 - (before.length + after.length)) 0 ++ after) := by
  by_cases hne : before = []
  · subst hne
    by_cases hempty : after = []
    · subst hempty
      rfl
    · obtain ⟨c, text, htext, -⟩ := exists_hexText hempty
      have hread : parseGroups 8 (hexText after) [] (some 0) =
          some ([] ++ after, some 0, []) :=
        parseGroups_hexText hempty (by simp at hlength; omega) hafter
      rw [htext] at hread
      rw [show hexText [] = [] from rfl, List.nil_append, htext, parseHextets_ellipsis,
        hread]
      simp at hlength
      simp [expand, hlength]
  · obtain ⟨c, text, htext, hc⟩ := exists_hexText hne
    have hread : parseGroups 8 (hexText before ++ ':' :: ':' :: hexText after) [] none = _ :=
      parseGroups_hexText_append hne (by omega) hbefore
    have hstart : parseHextets (hexText before ++ ':' :: ':' :: hexText after) =
        (parseGroups 8 (hexText before ++ ':' :: ':' :: hexText after) [] none).bind
          expand := by
      rw [htext, List.cons_append]
      exact parseHextets_of_isHexDigit hc
    rw [hstart, hread]
    by_cases hempty : after = []
    · subst hempty
      simp at hlength
      simp [hexText, expand, hlength]
    · obtain ⟨d, text', htext', -⟩ := exists_hexText hempty
      rw [if_neg (by simp [htext']), List.nil_append,
        parseGroups_hexText hempty (by omega) hafter]
      simp [expand, hlength]

/-- Dotted decimals after a group are the last two groups. -/
theorem parseGroups_octetsText
    (bits : BitVec 32) :
    parseGroups 7 (octetsText (digits 256 4 bits.toNat)) [65535] (some 0) =
      some (65535 :: digits 65536 2 bits.toNat, some 0, []) := by
  obtain ⟨n, rest, hn, htext⟩ := exists_octetsText bits
  have hdigits : ∀ c ∈ Nat.toDigits 10 n, isHexDigit c = true := fun c hc =>
    isHexDigit_of_isDigit (Nat.isDigit_of_mem_toDigits (by decide) (by decide) hc)
  have htake : (octetsText (digits 256 4 bits.toNat)).takeWhile isHexDigit =
      Nat.toDigits 10 n := by
    rw [htext, List.takeWhile_append_of_pos hdigits]
    simp [show isHexDigit '.' = false by decide]
  have hdrop : (octetsText (digits 256 4 bits.toNat)).dropWhile isHexDigit =
      '.' :: rest := by
    rw [htext, List.dropWhile_append_of_pos hdigits]
    simp [show isHexDigit '.' = false by decide]
  have hshort : ¬(Nat.toDigits 10 n = [] ∨ 4 < (Nat.toDigits 10 n).length) := by
    rintro (hnil | hlong)
    · simp at hnil
    · have := (Nat.length_toDigits_le_iff (by decide) (by decide)).mpr
        (show n < 10 ^ 3 by omega)
      omega
  have hlt := bits.isLt
  simp only [parseGroups, htake, hdrop, if_neg hshort, parseOctets_bits]
  simp [ofDigits_digits, Nat.mod_eq_of_lt hlt]

/-- The mapped address is read back behind its fixed start. -/
theorem parseHextets_mapped
    (bits : BitVec 32) :
    parseHextets ("::ffff:".toList ++ octetsText (digits 256 4 bits.toNat)) =
      some ([0, 0, 0, 0, 0, 65535] ++ digits 65536 2 bits.toNat) := by
  have hstart : parseHextets
      ("::ffff:".toList ++ octetsText (digits 256 4 bits.toNat)) =
      (parseGroups 7 (octetsText (digits 256 4 bits.toNat)) [65535] (some 0)).bind
        expand := by
    obtain ⟨n, rest, -, htext⟩ := exists_octetsText bits
    cases hdigits : Nat.toDigits 10 n with
    | nil =>
        simp at hdigits
    | cons c text =>
        have hc : c.isDigit = true :=
          Nat.isDigit_of_mem_toDigits (by decide) (by decide)
            (hdigits ▸ List.mem_cons_self : c ∈ Nat.toDigits 10 n)
        rw [htext, hdigits, List.cons_append]
        exact congrArg (·.bind expand)
          (parseGroups_colon (g := 65535) (by decide)
            (ne_colon_of_isHexDigit (isHexDigit_of_isDigit hc)))
  rw [hstart, parseGroups_octetsText]
  simp [expand, length_digits, List.replicate]

/-- Groups are read back, whichever were left out. -/
theorem parseHextets_groupsText
    {groups : List Nat}
    (hlength : groups.length = 8)
    (hlt : ∀ g ∈ groups, g < 65536) :
    parseHextets (groupsText groups) = some groups := by
  rw [groupsText]
  split
  next start stop hrun =>
  split
  · next hstart =>
      obtain ⟨htwo, hgroups⟩ := zeroRun_spec hrun hstart
      have hcount := congrArg List.length hgroups
      simp only [List.length_append, List.length_take, List.length_replicate,
        List.length_drop, hlength] at hcount
      have hzeros : 8 - ((groups.take start).length + (groups.drop stop).length) =
          stop - start := by
        simp only [List.length_take, List.length_drop, hlength]
        omega
      rw [parseHextets_leftOut
        (by simp only [List.length_take, List.length_drop, hlength]; omega)
        (fun g hg => hlt g (List.mem_of_mem_take hg))
        (fun g hg => hlt g (List.mem_of_mem_drop hg)), hzeros, ← hgroups]
  · have hne : groups ≠ [] := by
      rintro rfl
      simp at hlength
    obtain ⟨c, text, htext, hc⟩ := exists_hexText hne
    have hread : parseGroups 8 (hexText groups) [] none =
        some ([] ++ groups, none, []) :=
      parseGroups_hexText hne (by omega) hlt
    rw [htext] at hread
    rw [htext, parseHextets_of_isHexDigit hc, hread]
    simp [expand, hlength]

theorem ofDigits_groups
    (bits : BitVec 128) :
    BitVec.ofNat 128 (ofDigits 65536 (digits 65536 8 bits.toNat)) = bits := by
  have hlt := bits.isLt
  rw [ofDigits_digits, Nat.mod_eq_of_lt (by omega), BitVec.ofNat_toNat,
    BitVec.setWidth_eq]

theorem ofDigits_mapped
    {bits : BitVec 128}
    (hmapped : is4In6 bits = true) :
    BitVec.ofNat 128 (ofDigits 65536
      ([0, 0, 0, 0, 0, 65535] ++ digits 65536 2 (unmapped bits).toNat)) = bits := by
  have hhigh : bits.toNat / 2 ^ 32 = 65535 := by
    have heq := congrArg BitVec.toNat (eq_of_beq hmapped)
    simpa [BitVec.toNat_ushiftRight, Nat.shiftRight_eq_div_pow] using heq
  have hlow : (unmapped bits).toNat = bits.toNat % 2 ^ 32 := by
    simp [unmapped]
  apply BitVec.eq_of_toNat_eq
  rw [hlow]
  simp only [digits, ofDigits, BitVec.toNat_ofNat, List.nil_append, List.cons_append,
    List.foldl_cons, List.foldl_nil]
  omega

theorem parseHextets_addressText
    (bits : BitVec 128) :
    (parseHextets (addressText bits)).map (fun groups =>
      BitVec.ofNat 128 (ofDigits 65536 groups)) = some bits := by
  unfold addressText
  split
  · next hmapped =>
      rw [parseHextets_mapped, Option.map_some, ofDigits_mapped hmapped]
  · rw [parseHextets_groupsText (length_digits 8 _)
      fun g hg => lt_of_mem_digits (by decide) hg, Option.map_some, ofDigits_groups]

/-- In the text of an IPv6 address only digits stand before the first of its colons. -/
theorem exists_addressText
    (bits : BitVec 128) :
    ∃ hex rest, addressText bits = hex ++ ':' :: rest ∧ ':' ∈ rest ∧
      ∀ c ∈ hex, isHexDigit c = true := by
  unfold addressText
  split
  · exact ⟨[], ":ffff:".toList ++ _, rfl, by simp, by simp⟩
  · have hlength : (digits 65536 8 bits.toNat).length = 8 := length_digits 8 _
    obtain ⟨hchars, hcount⟩ := groupsText_spec hlength
    generalize groupsText (digits 65536 8 bits.toNat) = s at hchars hcount ⊢
    have hmem : ':' ∈ s := List.count_pos_iff.mp (by omega)
    obtain ⟨hex, rest, rfl, hhex⟩ := List.eq_append_cons_of_mem hmem
    rw [List.count_append, List.count_eq_zero.mpr hhex, List.count_cons_self] at hcount
    refine ⟨hex, rest, rfl, List.count_pos_iff.mp (by omega), fun c hc => ?_⟩
    rcases hchars c (List.mem_append_left _ hc) with rfl | hc'
    · exact absurd hc hhex
    · exact hc'

theorem parseIPv6_toText
    (bits : BitVec 128)
    (zone : List Char) :
    parseIPv6 (Addr.toText (.v6 bits zone)) = some (.v6 bits zone) := by
  have hbody : ∀ c ∈ addressText bits, (c != '%') = true := by
    intro c hc
    have hmem : c ∈ Addr.toText (.v6 bits []) := by
      rwa [Addr.toText, if_pos rfl, List.append_nil]
    exact forall_mem_toText (p := (· != '%')) (by decide) (by simp) c hmem
  have hread := parseHextets_addressText bits
  by_cases hzone : zone = []
  · subst hzone
    have htake : (addressText bits).takeWhile (· != '%') = addressText bits :=
      List.takeWhile_eq_self_iff.mpr hbody
    have hdrop : (addressText bits).dropWhile (· != '%') = [] :=
      List.dropWhile_eq_nil_iff.mpr hbody
    cases hhextets : parseHextets (addressText bits) with
    | none =>
        simp [hhextets] at hread
    | some groups =>
        rw [hhextets, Option.map_some, Option.some.injEq] at hread
        simp [Addr.toText, parseIPv6, htake, hdrop, hhextets, hread]
  · have htake : (addressText bits ++ '%' :: zone).takeWhile (· != '%') =
        addressText bits := by
      rw [List.takeWhile_append_of_pos hbody]
      simp
    have hdrop : (addressText bits ++ '%' :: zone).dropWhile (· != '%') =
        '%' :: zone := by
      rw [List.dropWhile_append_of_pos hbody]
      simp
    cases hhextets : parseHextets (addressText bits) with
    | none =>
        simp [hhextets] at hread
    | some groups =>
        rw [hhextets, Option.map_some, Option.some.injEq] at hread
        simp [Addr.toText, parseIPv6, hzone, htake, hdrop, hhextets, hread]

/-- Digits tell nothing about the family of an address. -/
theorem find?_separator_digits
    {hex : List Char}
    (hhex : ∀ c ∈ hex, isHexDigit c = true) :
    hex.find? (fun c => c == '.' || c == ':' || c == '%') = none := by
  refine List.find?_eq_none.mpr fun c hc => ?_
  have hdigit := hhex c hc
  simp only [Bool.or_eq_true, beq_iff_eq, not_or]
  refine ⟨⟨?_, ?_⟩, ?_⟩ <;> rintro rfl <;> exact absurd hdigit (by decide)

/-- Text with a colon after digits is read as an IPv6 address. -/
theorem parseAddr_colon
    {hex rest : List Char}
    (hhex : ∀ c ∈ hex, isHexDigit c = true) :
    parseAddr (hex ++ ':' :: rest) = parseIPv6 (hex ++ ':' :: rest) := by
  rw [parseAddr, List.find?_append, find?_separator_digits hhex]
  rfl

theorem parseIPv6_ne_v4
    (s : List Char)
    (bits : BitVec 32) :
    parseIPv6 s ≠ some (.v4 bits) := by
  unfold parseIPv6
  extract_lets zone
  split
  · simp
  · simp

/-- The text of an address is read back as the address. -/
theorem parseAddr_toText
    (addr : Addr) :
    parseAddr addr.toText = some addr := by
  cases addr with
  | v4 bits =>
      obtain ⟨n, rest, -, htext⟩ := exists_octetsText bits
      have hfind : (octetsText (digits 256 4 bits.toNat)).find?
          (fun c => c == '.' || c == ':' || c == '%') = some '.' := by
        have hdigits : ∀ c ∈ Nat.toDigits 10 n, isHexDigit c = true := fun c hc =>
          isHexDigit_of_isDigit (Nat.isDigit_of_mem_toDigits (by decide) (by decide) hc)
        rw [htext, List.find?_append, find?_separator_digits hdigits]
        rfl
      rw [Addr.toText, parseAddr, hfind, parseIPv4, parseOctets_bits, Option.map_some,
        ofDigits_octets]
      rfl
  | v6 bits zone =>
      obtain ⟨hex, rest, htext, -, hhex⟩ := exists_addressText bits
      have hcolon : parseAddr (Addr.toText (.v6 bits zone)) =
          parseIPv6 (Addr.toText (.v6 bits zone)) := by
        rw [Addr.toText, htext, List.append_assoc]
        exact parseAddr_colon hhex
      rw [hcolon]
      exact parseIPv6_toText bits zone

/-- Different addresses have different texts. -/
theorem toText_injective :
    Function.Injective Addr.toText := by
  intro a b h
  have hread := parseAddr_toText a
  rw [h, parseAddr_toText] at hread
  exact (Option.some.inj hread).symm

end RoundTrip

end NetIP
end Util
end CoopMessenger
