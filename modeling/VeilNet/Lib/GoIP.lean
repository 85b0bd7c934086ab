import VeilNet.Lib.GoNet

/-!
Addresses and masks of Go's `net` package as byte slices, where nil is the empty slice, and
`net.ParseCIDR`. Reading an address from text is a parameter. A panic is an error of its own.
-/
namespace VeilNet.Lib.GoIP

/-- What an address text stands for. The IPv6 forms of an IPv4 address are IPv6. -/
inductive Addr where
  | v4 (a : UInt32)
  | v6 (bytes : Vector UInt8 16)
  deriving DecidableEq

/-- `netip.Addr.BitLen`. -/
def Addr.bitLen : Addr → ℕ
  | .v4 _ => 32
  | .v6 _ => 128

def octetList (a : UInt32) : List UInt8 :=
  let (a, b, c, d) := IPText.octets a
  [a, b, c, d]

def v4InV6 : List UInt8 := List.replicate 10 0 ++ [0xff, 0xff]

/-- `netip.Addr.As16`. -/
def Addr.as16 : Addr → List UInt8
  | .v4 a => v4InV6 ++ octetList a
  | .v6 bytes => bytes.toList

/-- The address is an IPv4 address in IPv6 form. -/
def Mapped (bytes : List UInt8) : Prop := bytes.take 12 = v4InV6

instance (bytes : List UInt8) : Decidable (Mapped bytes) := inferInstanceAs (Decidable (_ = _))

/-- `IP.To4`. -/
def to4 (ip : List UInt8) : List UInt8 :=
  if ip.length = 4 then ip
  else if ip.length = 16 ∧ Mapped ip then ip.drop 12
  else []

/-- `IP.IsLoopback`: 127.0.0.0/8, or `::1`. -/
def isLoopback (ip : List UInt8) : Bool :=
  match to4 ip with
  | first :: _ => first == 127
  | [] => ip == List.replicate 15 0 ++ [1]

/-- One byte of a mask with `n` ones left. -/
def maskByte (n : ℕ) : UInt8 := if 8 ≤ n then 0xff else ~~~(0xff >>> UInt8.ofNat n)

/-- `CIDRMask(ones, bits)`. -/
def cidrMask (ones bits : ℕ) : List UInt8 :=
  (List.range (bits / 8)).map fun i => maskByte (ones - 8 * i)

/-- A 16-byte mask whose first 12 bytes are all ones stands for its last four at a
4-byte address. -/
def maskFor (ip mask : List UInt8) : List UInt8 :=
  if mask.length = 16 ∧ ip.length = 4 ∧ (mask.take 12).all (· == 0xff) = true then mask.drop 12
  else mask

/-- `IP.Mask`: nil when the lengths differ. -/
def applyMask (ip mask : List UInt8) : List UInt8 :=
  if ip.length = (maskFor ip mask).length then List.zipWith (· &&& ·) ip (maskFor ip mask) else []

inductive Panic where
  | indexOutOfRange

/-- `binary.BigEndian.Uint32`: fewer than four bytes panic. -/
def uint32 : List UInt8 → Except Panic UInt32
  | a :: b :: c :: d :: _ => .ok (IPText.ofOctets a b c d)
  | _ => .error .indexOutOfRange

/-- A number in decimal digits. -/
def dtoi (s : String) : Option ℕ :=
  let digits := s.toList
  if digits ≠ [] ∧ digits.all Char.isDigit then
    some (digits.foldl (fun acc c => 10 * acc + (c.toNat - 48)) 0)
  else none

section parsing
variable (parseAddr : String → Option Addr)

/-- The address and the number of ones that a CIDR text stands for. -/
def readCIDR (s : String) : Option (Addr × ℕ) := do
  let (addrText, onesText) ← GoText.cut s '/'
  let addr ← parseAddr addrText
  let ones ← dtoi onesText
  if ones ≤ addr.bitLen then some (addr, ones) else none

/-- `ParseCIDR`: the address in 16 bytes, and the mask of the network. -/
def parseCIDR (s : String) : Option (List UInt8 × List UInt8) :=
  (readCIDR parseAddr s).map fun (addr, ones) => (addr.as16, cidrMask ones addr.bitLen)

end parsing

theorem length_cidrMask (ones bits : ℕ) : (cidrMask ones bits).length = bits / 8 := by
  simp [cidrMask]

theorem maskByte_eq_ones_iff (n : ℕ) : maskByte n = 0xff ↔ 8 ≤ n := by
  unfold maskByte
  by_cases full : 8 ≤ n
  · simp [full]
  · have small : ∀ n : Fin 8, ~~~((0xff : UInt8) >>> UInt8.ofNat n.val) ≠ 0xff := by decide
    rw [if_neg full]
    exact iff_of_false (small ⟨n, by omega⟩) full

/-- The first twelve bytes of an IPv6 mask are ones from `/96` on. -/
theorem ones_take_cidrMask_iff (ones : ℕ) :
    ((cidrMask ones 128).take 12).all (· == 0xff) = true ↔ 96 ≤ ones := by
  have bytes : (cidrMask ones 128).take 12 = (List.range 12).map fun i =>
      maskByte (ones - 8 * i) := by
    rw [cidrMask, ← List.map_take, List.take_range]
    rfl
  rw [bytes]
  simp only [List.all_eq_true, beq_iff_eq, List.mem_map, List.mem_range, forall_exists_index,
    and_imp, forall_apply_eq_imp_iff₂, maskByte_eq_ones_iff]
  constructor
  · intro full
    have last := full 11 (by omega)
    omega
  · intro long i below
    omega

theorem uint32_ok_iff {bytes : List UInt8} : (∃ word, uint32 bytes = .ok word) ↔
    4 ≤ bytes.length := by
  match bytes with
  | a :: b :: c :: d :: rest => exact iff_of_true ⟨_, rfl⟩ (by simp)
  | [] | [_] | [_, _] | [_, _, _] =>
    exact iff_of_false (fun ok => by cases ok.choose_spec) (by simp)

theorem to4_as16_v4 (a : UInt32) : to4 (Addr.v4 a).as16 = octetList a := rfl

/-- Masking a 4-byte address with an IPv6 mask gives an address exactly from `/96` on. -/
theorem length_applyMask {ip : List UInt8} (four : ip.length = 4) (ones : ℕ) :
    (applyMask ip (cidrMask ones 128)).length = if 96 ≤ ones then 4 else 0 := by
  have sixteen : (cidrMask ones 128).length = 16 := length_cidrMask ones 128
  by_cases long : 96 ≤ ones
  · have whole : maskFor ip (cidrMask ones 128) = (cidrMask ones 128).drop 12 :=
      if_pos ⟨sixteen, four, (ones_take_cidrMask_iff ones).mpr long⟩
    simp [applyMask, whole, four, sixteen, long]
  · have broken : maskFor ip (cidrMask ones 128) = cidrMask ones 128 :=
      if_neg fun all => long ((ones_take_cidrMask_iff ones).mp all.2.2)
    simp [applyMask, broken, four, sixteen, long]

/-- Masking an IPv4 address byte by byte is masking the word. -/
theorem uint32_applyMask {ip mask : List UInt8} (four : ip.length = 4) (four' : mask.length = 4)
    {word bits : UInt32} (ofIP : uint32 ip = .ok word) (ofMask : uint32 mask = .ok bits) :
    uint32 (applyMask ip mask) = .ok (word &&& bits) := by
  have plain : maskFor ip mask = mask := if_neg fun all => by omega
  rw [applyMask, plain, if_pos (four.trans four'.symm)]
  match ip, four, mask, four' with
  | [a, b, c, d], _, [a', b', c', d'], _ =>
    obtain rfl := Except.ok.inj ofIP
    obtain rfl := Except.ok.inj ofMask
    exact congrArg Except.ok (IPText.ofOctets_and a b c d a' b' c' d').symm

end VeilNet.Lib.GoIP
