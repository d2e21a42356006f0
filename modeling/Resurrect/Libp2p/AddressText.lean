import Resurrect.Foundation.Hex
import Resurrect.Foundation.Numeral
import Resurrect.Libp2p.EndpointPolicy

/-! # The texts of IP addresses

How the standard library writes an address: four decimal octets, and eight
hexadecimal segments of which the first of the longest runs of zeros is left out.
What a text begins with is read off the segments.
-/

namespace Resurrect.Libp2p

open Hex Numeral

theorem mem_intercalate {separator c : Char} {parts : List (List Char)} (h : c ∈ [separator].intercalate parts) :
    c = separator ∨ ∃ part ∈ parts, c ∈ part := by
  induction parts with
  | nil => cases h
  | cons first rest ih =>
    cases rest with
    | nil =>
      rw [List.intercalate_singleton] at h
      exact .inr ⟨first, List.mem_singleton_self _, h⟩
    | cons second rest =>
      rw [List.intercalate_cons_cons, List.mem_append, List.mem_append, List.mem_singleton] at h
      obtain (hFirst | hSeparator) | hRest := h
      · exact .inr ⟨first, List.mem_cons_self, hFirst⟩
      · exact .inl hSeparator
      · obtain hSeparator | ⟨part, hPart, hMem⟩ := ih hRest
        · exact .inl hSeparator
        · exact .inr ⟨part, List.mem_cons_of_mem _ hPart, hMem⟩

namespace Ipv4Addr

def parts (self : Ipv4Addr) : List (List Char) := self.octets.toList.map fun octet => (Nat.repr octet.toNat).toList

def text (self : Ipv4Addr) : List Char := ['.'].intercalate self.parts

theorem parts_eq (self : Ipv4Addr) : self.parts = [(Nat.repr (self.octets.get 0).toNat).toList,
    (Nat.repr (self.octets.get 1).toNat).toList, (Nat.repr (self.octets.get 2).toNat).toList,
    (Nat.repr (self.octets.get 3).toNat).toList] := by
  obtain ⟨⟨⟨octets⟩, hLength⟩⟩ := self
  match octets, hLength with
  | [_, _, _, _], _ => rfl

theorem splitOn_text (self : Ipv4Addr) : self.text.splitOn '.' = self.parts := by
  refine List.splitOn_intercalate '.' (fun part hMem => ?_) (by rw [parts_eq]; exact List.cons_ne_nil _ _)
  obtain ⟨octet, -, rfl⟩ := List.mem_map.mp hMem
  exact not_mem_repr rfl octet.toNat

theorem toLower_text (self : Ipv4Addr) : ∀ c ∈ self.text, c.toLower = c := by
  intro c hMem
  obtain rfl | ⟨part, hPart, hChar⟩ := mem_intercalate hMem
  · rfl
  · obtain ⟨octet, -, rfl⟩ := List.mem_map.mp hPart
    rw [Nat.toList_repr] at hChar
    exact toLower_of_mem_toDigits (by decide) (by decide) octet.toNat c hChar

end Ipv4Addr

/-- A run of segments. -/
structure Span where
  start : Nat
  len : Nat
  deriving DecidableEq, Repr

namespace Ipv6Addr

def segment (value : UInt16) : List Char := Nat.toDigits 16 value.toNat

def fmtSubslice (chunk : List UInt16) : List Char := [':'].intercalate (chunk.map segment)

/-- The first of the longest runs of zeros, from the segment with number `i` on. -/
def zeroesFrom (i : Nat) (longest current : Span) : List UInt16 → Span
  | [] => longest
  | value :: rest =>
    if value = 0 then
      let current : Span := ⟨if current.len = 0 then i else current.start, current.len + 1⟩
      zeroesFrom (i + 1) (if longest.len < current.len then current else longest) current rest
    else zeroesFrom (i + 1) longest ⟨0, 0⟩ rest

def zeroes (self : Ipv6Addr) : Span := zeroesFrom 0 ⟨0, 0⟩ ⟨0, 0⟩ self.segments.toList

def text (self : Ipv6Addr) : List Char :=
  match self.toIpv4Mapped with
  | some ipv4 => [':', ':', 'f', 'f', 'f', 'f', ':'] ++ ipv4.text
  | none =>
    if 1 < self.zeroes.len then
      fmtSubslice (self.segments.toList.take self.zeroes.start) ++ [':', ':'] ++
        fmtSubslice (self.segments.toList.drop (self.zeroes.start + self.zeroes.len))
    else fmtSubslice self.segments.toList

/-- Whether the text begins with what is left out, or with the prefix of a mapped address. -/
def isLeading (self : Ipv6Addr) : Bool :=
  self.toIpv4Mapped.isSome || (self.zeroes.start == 0 && decide (1 < self.zeroes.len))

def IsZeroRun (segments : List UInt16) (span : Span) : Prop :=
  ∀ i, span.start ≤ i → i < span.start + span.len → segments[i]? = some 0

theorem isZeroRun_empty (segments : List UInt16) (start : Nat) : IsZeroRun segments ⟨start, 0⟩ := by
  intro i hStart hEnd
  dsimp only at hStart hEnd
  omega

/-- One more zero at the end of a run, or the first of a new one. -/
theorem IsZeroRun.extend {segments : List UInt16} {current : Span} {i : Nat} (h : IsZeroRun segments current)
    (hEnd : current.len = 0 ∨ current.start + current.len = i) (hZero : segments[i]? = some 0) :
    IsZeroRun segments ⟨if current.len = 0 then i else current.start, current.len + 1⟩ := by
  intro j hStart hLast
  dsimp only at hStart hLast
  obtain rfl | hBefore := eq_or_ne j i
  · exact hZero
  · by_cases hLen : current.len = 0
    · rw [if_pos hLen] at hStart hLast
      omega
    · rw [if_neg hLen] at hStart hLast
      exact h j hStart (by omega)

theorem isZeroRun_zeroesFrom {segments rest : List UInt16} {i : Nat} {longest current : Span}
    (hLongest : IsZeroRun segments longest) (hCurrent : IsZeroRun segments current)
    (hEnd : current.len = 0 ∨ current.start + current.len = i) (hRest : segments.drop i = rest) :
    IsZeroRun segments (zeroesFrom i longest current rest) := by
  induction rest generalizing i longest current with
  | nil => exact hLongest
  | cons value rest ih =>
    have hHead : segments[i]? = some value := by rw [← List.head?_drop, hRest, List.head?_cons]
    have hTail : segments.drop (i + 1) = rest := by rw [← List.tail_drop, hRest, List.tail_cons]
    rw [zeroesFrom]
    split
    · rename_i hZero
      subst hZero
      have hNext := hCurrent.extend hEnd hHead
      have hNextEnd : (if current.len = 0 then i else current.start) + (current.len + 1) = i + 1 := by
        split <;> omega
      dsimp only
      split
      · exact ih hNext hNext (.inr hNextEnd) hTail
      · exact ih hLongest hNext (.inr hNextEnd) hTail
    · exact ih hLongest (isZeroRun_empty segments 0) (.inl rfl) hTail

theorem isZeroRun_zeroes (self : Ipv6Addr) : IsZeroRun self.segments.toList self.zeroes :=
  isZeroRun_zeroesFrom (isZeroRun_empty _ 0) (isZeroRun_empty _ 0) (.inl rfl) List.drop_zero

theorem fmtSubslice_cons (value next : UInt16) (rest : List UInt16) :
    fmtSubslice (value :: next :: rest) = segment value ++ ':' :: fmtSubslice (next :: rest) := by
  rw [fmtSubslice, List.map_cons, List.map_cons, List.intercalate_cons_cons, List.append_assoc]
  rfl

/-- A segment with more behind it is followed by a colon. -/
theorem fmtSubslice_append (value : UInt16) (rest : List UInt16) (after : List Char) :
    ∃ tail, fmtSubslice (value :: rest) ++ ':' :: after = segment value ++ ':' :: tail := by
  cases rest with
  | nil => exact ⟨after, by rw [fmtSubslice, List.map_singleton, List.intercalate_singleton]⟩
  | cons next rest => exact ⟨_, by rw [fmtSubslice_cons, List.append_assoc, List.cons_append]⟩

theorem toList_segments (self : Ipv6Addr) : ∃ rest, self.segments.toList =
    self.segments.get 0 :: self.segments.get 1 :: self.segments.get 2 :: rest := by
  obtain ⟨⟨⟨segments⟩, hLength⟩⟩ := self
  match segments, hLength with
  | [_, _, _, _, _, _, _, _], _ => exact ⟨_, rfl⟩

theorem prefix_text (self : Ipv6Addr) (h : self.isLeading = true) : [':', ':'] <+: self.text := by
  rw [text]
  split
  · exact ⟨_, rfl⟩
  · rename_i hMapped
    rw [isLeading, hMapped, Option.isSome_none, Bool.false_or, Bool.and_eq_true, beq_iff_eq, decide_eq_true_eq] at h
    rw [if_pos h.2, h.1, List.take_zero]
    exact ⟨_, rfl⟩

/-- A text that does not begin so begins with the first segment, and goes on with the second unless that is zero. -/
theorem text_eq (self : Ipv6Addr) (h : self.isLeading = false) : ∃ rest,
    self.text = segment (self.segments.get 0) ++ ':' :: rest ∧
      ∃ tail, (self.segments.get 1 = 0 ∧ rest = ':' :: tail) ∨ rest = segment (self.segments.get 1) ++ ':' :: tail := by
  obtain ⟨rest, hSegments⟩ := self.toList_segments
  have hMapped : self.toIpv4Mapped = none := by
    rw [isLeading, Bool.or_eq_false_iff, Option.isSome_eq_false_iff, Option.isNone_iff_eq_none] at h
    exact h.1
  rw [isLeading, hMapped, Option.isSome_none, Bool.false_or] at h
  rw [text, hMapped]
  dsimp only
  split
  · rename_i hLen
    rw [decide_eq_true hLen, Bool.and_true, beq_eq_false_iff_ne] at h
    obtain hOne | hMore := (by omega : self.zeroes.start = 1 ∨ 2 ≤ self.zeroes.start)
    · have hSecond := self.isZeroRun_zeroes 1 hOne.le (by omega)
      rw [hSegments, List.getElem?_cons_succ, List.getElem?_cons_zero, Option.some_inj] at hSecond
      rw [hSegments, hOne, List.take_succ_cons, List.take_zero, fmtSubslice, List.map_singleton,
        List.intercalate_singleton, List.append_assoc]
      exact ⟨_, rfl, _, .inl ⟨hSecond, rfl⟩⟩
    · obtain ⟨start, hStart⟩ := Nat.exists_eq_add_of_le' hMore
      rw [hSegments, hStart, List.take_succ_cons, List.take_succ_cons, fmtSubslice_cons, List.append_assoc,
        List.append_assoc, List.cons_append]
      obtain ⟨tail, hTail⟩ := fmtSubslice_append (self.segments.get 1) ((self.segments.get 2 :: rest).take start)
        (':' :: fmtSubslice ((self.segments.get 0 :: self.segments.get 1 :: self.segments.get 2 :: rest).drop
          (start + 2 + self.zeroes.len)))
      exact ⟨_, rfl, tail, .inr hTail⟩
  · rw [hSegments, fmtSubslice_cons, fmtSubslice_cons]
    exact ⟨_, rfl, _, .inr rfl⟩

/-- Whether the text of a segment begins with these digits. -/
def beginsWith (digits value : Nat) : Bool :=
  value == digits || value / 16 == digits || value / 16 ^ 2 == digits || value / 16 ^ 3 == digits

theorem beginsWith_iff {digits : Nat} (hPos : 0 < digits) (value : UInt16) :
    Nat.toDigits 16 digits <+: segment value ↔ beginsWith digits value.toNat = true := by
  have hValue : value.toNat < 16 ^ 4 := value.toNat_lt
  rw [segment, toDigits_prefix_iff hPos, beginsWith]
  simp only [Bool.or_eq_true, beq_iff_eq]
  constructor
  · rintro ⟨k, hDiv⟩
    match k, hDiv with
    | 0, hDiv => exact .inl (.inl (.inl (by rwa [Nat.pow_zero, Nat.div_one] at hDiv)))
    | 1, hDiv => exact .inl (.inl (.inr (by rwa [Nat.pow_one] at hDiv)))
    | 2, hDiv => exact .inl (.inr hDiv)
    | 3, hDiv => exact .inr hDiv
    | k + 4, hDiv =>
      have hPow : 16 ^ 4 ≤ 16 ^ (k + 4) := Nat.pow_le_pow_right (by decide) (Nat.le_add_left 4 k)
      rw [Nat.div_eq_of_lt (hValue.trans_le hPow)] at hDiv
      omega
  · rintro (((hDiv | hDiv) | hDiv) | hDiv)
    · exact ⟨0, by rw [Nat.pow_zero, Nat.div_one, hDiv]⟩
    · exact ⟨1, by rw [Nat.pow_one, hDiv]⟩
    · exact ⟨2, hDiv⟩
    · exact ⟨3, hDiv⟩

theorem prefix_append_iff {c : Char} {digits text rest : List Char} (h : c ∉ digits) :
    digits <+: text ++ c :: rest ↔ digits <+: text := by
  constructor
  · intro hPrefix
    obtain hLess | ⟨more, rfl⟩ := List.prefix_or_prefix_of_prefix hPrefix (List.prefix_append text (c :: rest))
    · exact hLess
    · obtain ⟨after, hAfter⟩ := hPrefix
      rw [List.append_assoc, List.append_cancel_left_eq] at hAfter
      cases more with
      | nil => exact (List.append_nil text).symm ▸ List.prefix_rfl
      | cons first more =>
        obtain ⟨rfl, -⟩ := List.cons.inj hAfter
        exact absurd (List.mem_append_right text List.mem_cons_self) h
  · exact fun hPrefix => hPrefix.trans (List.prefix_append ..)

section Prefixes

variable {self : Ipv6Addr}

theorem not_prefix_text (h : self.isLeading = false) : ¬ [':', ':'] <+: self.text := by
  obtain ⟨rest, hText, -⟩ := self.text_eq h
  have hColon : ':' ∉ segment (self.segments.get 0) := not_mem_toDigits (by decide) _
  rw [hText]
  rintro ⟨after, hAfter⟩
  cases hSegment : segment (self.segments.get 0) with
  | nil => exact absurd hSegment Nat.toDigits_ne_nil
  | cons first more =>
    rw [hSegment] at hAfter hColon
    obtain ⟨rfl, -⟩ := List.cons.inj hAfter
    exact hColon List.mem_cons_self

theorem prefix_text_iff (h : self.isLeading = false) {digits : Nat} (hPos : 0 < digits) :
    Nat.toDigits 16 digits <+: self.text ↔ beginsWith digits (self.segments.get 0).toNat = true := by
  obtain ⟨rest, hText, -⟩ := self.text_eq h
  rw [hText, prefix_append_iff (not_mem_toDigits (by decide) digits), beginsWith_iff hPos]

theorem prefix_cons_append_iff {c : Char} {first second text rest : List Char} (hFirst : c ∉ first) (hText : c ∉ text) :
    first ++ c :: second <+: text ++ c :: rest ↔ first = text ∧ second <+: rest := by
  constructor
  · rintro ⟨after, hAfter⟩
    rw [List.append_assoc, List.cons_append] at hAfter
    obtain ⟨middle, rfl, hMiddle⟩ | ⟨middle, rfl, hMiddle⟩ := List.append_eq_append_iff.mp hAfter
    · cases middle with
      | nil => exact ⟨(List.append_nil _).symm, after, (List.cons.inj hMiddle).2⟩
      | cons _ middle =>
        obtain ⟨rfl, -⟩ := List.cons.inj hMiddle
        exact absurd (List.mem_append_right first List.mem_cons_self) hText
    · cases middle with
      | nil => exact ⟨List.append_nil _, after, (List.cons.inj hMiddle).2.symm⟩
      | cons _ middle =>
        obtain ⟨rfl, -⟩ := List.cons.inj hMiddle
        exact absurd (List.mem_append_right text List.mem_cons_self) hFirst
  · rintro ⟨rfl, after, rfl⟩
    exact ⟨after, by rw [List.append_assoc, List.cons_append]⟩

theorem prefix_text_two_iff (h : self.isLeading = false) (first : Nat) {second : Nat} (hPos : 0 < second) :
    Nat.toDigits 16 first ++ ':' :: Nat.toDigits 16 second <+: self.text ↔
      (self.segments.get 0).toNat = first ∧ beginsWith second (self.segments.get 1).toNat = true := by
  obtain ⟨rest, hText, tail, hRest⟩ := self.text_eq h
  have hColon : isDigit ':' = false := by decide
  have hSegment : ':' ∉ segment (self.segments.get 0) := not_mem_toDigits hColon _
  rw [hText, prefix_cons_append_iff (not_mem_toDigits hColon first) hSegment, segment, toDigits_injective.eq_iff,
    @eq_comm _ first]
  refine and_congr_right fun _ => ?_
  obtain ⟨hZero, rfl⟩ | rfl := hRest
  · have hNone : beginsWith second (0 : UInt16).toNat = false := by simp [beginsWith, hPos.ne]
    have hPrefix := @prefix_append_iff ':' (Nat.toDigits 16 second) [] tail (not_mem_toDigits hColon second)
    rw [List.nil_append] at hPrefix
    rw [hPrefix, hZero, hNone, List.prefix_nil]
    exact iff_of_false Nat.toDigits_ne_nil Bool.false_ne_true
  · rw [prefix_append_iff (not_mem_toDigits hColon second), beginsWith_iff hPos]

end Prefixes

theorem toLower_fmtSubslice (chunk : List UInt16) : ∀ c ∈ fmtSubslice chunk, c.toLower = c := by
  intro c hMem
  obtain rfl | ⟨part, hPart, hChar⟩ := mem_intercalate hMem
  · rfl
  · obtain ⟨value, -, rfl⟩ := List.mem_map.mp hPart
    exact toLower_of_mem_toDigits (by decide) (by decide) value.toNat c hChar

theorem toLower_of_all {chars : List Char} (h : chars.all (fun c => c.toLower == c) = true) :
    ∀ c ∈ chars, c.toLower = c := fun c hMem => eq_of_beq (List.all_eq_true.mp h c hMem)

theorem toLower_text (self : Ipv6Addr) : ∀ c ∈ self.text, c.toLower = c := by
  rw [text]
  split
  · rename_i ipv4 _
    exact List.forall_mem_append.mpr ⟨toLower_of_all rfl, ipv4.toLower_text⟩
  · split
    · exact List.forall_mem_append.mpr ⟨List.forall_mem_append.mpr ⟨toLower_fmtSubslice _, toLower_of_all rfl⟩,
        toLower_fmtSubslice _⟩
    · exact toLower_fmtSubslice _

end Ipv6Addr

example : String.ofList (Ipv6Addr.text ⟨#v[0x2001, 0xdb8, 0, 0, 1, 0, 0, 1]⟩) = "2001:db8::1:0:0:1" := by decide

end Resurrect.Libp2p
