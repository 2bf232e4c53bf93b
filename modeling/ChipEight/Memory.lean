set_option autoImplicit false

namespace ChipEight

def memorySize : Nat := 4096

def programStart : Nat := 0x200

def programCapacity : Nat := memorySize - programStart

abbrev Address := Fin 4096

instance neZero_addresses : @NeZero Nat Zero.ofOfNat0 4096 := ⟨by decide⟩

abbrev Memory := Vector UInt8 4096

namespace Memory

def blank : Memory := Vector.replicate 4096 0

def read (m : Memory) (a : Nat) : UInt8 :=
  have : a % 4096 < 4096 := Nat.mod_lt a (by decide)
  m[a % 4096]

def write (m : Memory) (a : Nat) (b : UInt8) : Memory :=
  m.set (a % 4096) b (Nat.mod_lt a (by decide))

/-- Store bytes one after the other, wrapping at the end of memory. -/
def store (m : Memory) (a : Nat) : List UInt8 → Memory
  | [] => m
  | b :: rest => store (m.write a b) (a + 1) rest

def slice (m : Memory) (a n : Nat) : List UInt8 :=
  (List.range n).map fun k => m.read (a + k)

def word (m : Memory) (a : Nat) : UInt16 :=
  UInt16.ofNat ((m.read a).toNat * 256 + (m.read (a + 1)).toNat)

theorem read_mod (m : Memory) (a : Nat) : m.read (a % 4096) = m.read a := by
  simp [read]

theorem write_mod (m : Memory) (a : Nat) (b : UInt8) : m.write (a % 4096) b = m.write a b := by
  simp [write]

theorem read_congr (m : Memory) {a c : Nat} (h : a % 4096 = c % 4096) : m.read a = m.read c := by
  rw [← read_mod, h, read_mod]

theorem word_congr (m : Memory) {a c : Nat} (h : a % 4096 = c % 4096) : m.word a = m.word c := by
  have after : (a + 1) % 4096 = (c + 1) % 4096 := by omega
  rw [word, word, m.read_congr h, m.read_congr after]

theorem slice_congr (m : Memory) {a c : Nat} (h : a % 4096 = c % 4096) (n : Nat) :
    m.slice a n = m.slice c n := by
  unfold slice
  refine List.map_congr_left fun k _ => m.read_congr ?_
  omega

theorem write_congr (m : Memory) {a c : Nat} (h : a % 4096 = c % 4096) (b : UInt8) :
    m.write a b = m.write c b := by
  rw [← write_mod, h, write_mod]

theorem read_write (m : Memory) (a c : Nat) (b : UInt8) :
    (m.write a b).read c = if a % 4096 = c % 4096 then b else m.read c := by
  simp [read, write, Vector.getElem_set]

theorem read_blank (a : Nat) : blank.read a = 0 := by
  simp [read, blank]

theorem store_cons (m : Memory) (a : Nat) (b : UInt8) (rest : List UInt8) :
    m.store a (b :: rest) = (m.write a b).store (a + 1) rest := rfl

theorem store_congr (m : Memory) {a c : Nat} (h : a % 4096 = c % 4096) (bs : List UInt8) :
    m.store a bs = m.store c bs := by
  induction bs generalizing m a c with
  | nil => rfl
  | cons b rest ih =>
    have after : (a + 1) % 4096 = (c + 1) % 4096 := by omega
    rw [store_cons, store_cons, m.write_congr h, ih _ after]

theorem length_slice (m : Memory) (a n : Nat) : (m.slice a n).length = n := by
  simp [slice]

theorem toNat_word (m : Memory) (a : Nat) :
    (m.word a).toNat = (m.read a).toNat * 256 + (m.read (a + 1)).toNat := by
  have h := (m.read a).toNat_lt
  have h' := (m.read (a + 1)).toNat_lt
  simp only [word, UInt16.toNat_ofNat']
  omega

/-- How far an address lies behind another, going around at the end of memory. -/
def distance (a c : Nat) : Nat := (c + (4096 - a % 4096)) % 4096

theorem distance_eq_zero_iff {a c : Nat} : distance a c = 0 ↔ a % 4096 = c % 4096 := by
  unfold distance
  omega

theorem distance_succ {a c : Nat} (h : a % 4096 ≠ c % 4096) :
    distance a c = distance (a + 1) c + 1 := by
  unfold distance
  omega

theorem distance_succ_self {a c : Nat} (h : a % 4096 = c % 4096) : distance (a + 1) c = 4095 := by
  unfold distance
  omega

theorem distance_add {a k : Nat} (h : k < 4096) : distance a (a + k) = k := by
  unfold distance
  omega

theorem read_store (bs : List UInt8) (m : Memory) (a c : Nat) (h : bs.length ≤ 4096) :
    (m.store a bs).read c = (bs[distance a c]?).getD (m.read c) := by
  induction bs generalizing m a with
  | nil => simp [store]
  | cons b rest ih =>
    rw [List.length_cons] at h
    rw [store, ih _ _ (by omega), read_write]
    by_cases same : a % 4096 = c % 4096
    · rw [distance_eq_zero_iff.2 same, distance_succ_self same, if_pos same,
        List.getElem?_eq_none (by omega)]
      rfl
    · rw [distance_succ same, if_neg same, List.getElem?_cons_succ]

theorem read_store_of_le (bs : List UInt8) (m : Memory) (a c : Nat) (h : bs.length ≤ 4096)
    (behind : bs.length ≤ distance a c) : (m.store a bs).read c = m.read c := by
  rw [read_store _ _ _ _ h, List.getElem?_eq_none behind]
  rfl

/-- The address that a signed number names: its remainder modulo 4096, never negative. -/
def wrap (z : Int) : Nat := (z % 4096).toNat

end Memory

end ChipEight
