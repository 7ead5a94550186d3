import Kide.Lib.Bytes
import Kide.Lib.Codec

/-!
# Gzip members of stored blocks

The gzip format of RFC 1952 around deflate data that is stored, not compressed: blocks of at most 65535
bytes, each with its length, and after them the CRC-32 and the length of the data.
-/

namespace Gzip

open ByteStrings

/-- Magic, deflate, no flags, no time, fastest algorithm, unknown system. -/
def header : List UInt8 := [0x1f, 0x8b, 8, 0, 0, 0, 0, 0, 4, 255]

def crcBit (crc : UInt32) : UInt32 := if crc &&& 1 = 1 then crc >>> 1 ^^^ 0xedb88320 else crc >>> 1

def crcByte (crc : UInt32) (byte : UInt8) : UInt32 := crcBit^[8] (crc ^^^ byte.toUInt32)

def crc32 (data : List UInt8) : UInt32 := data.foldl crcByte 0xffffffff ^^^ 0xffffffff

def trailer (data : List UInt8) : List UInt8 := toLeBytes 4 (crc32 data).toNat ++ toLeBytes 4 data.length

def BLOCK_LIMIT : Nat := 65535

def storedBlock (final : UInt8) (data : List UInt8) : List UInt8 :=
  final :: (toLeBytes 2 data.length ++ toLeBytes 2 (BLOCK_LIMIT - data.length) ++ data)

/-- The fuel bounds the number of blocks. -/
def store : Nat → List UInt8 → List UInt8
  | 0, data => storedBlock 1 data
  | fuel + 1, data =>
    if data.length ≤ BLOCK_LIMIT then storedBlock 1 data
    else storedBlock 0 (data.take BLOCK_LIMIT) ++ store fuel (data.drop BLOCK_LIMIT)

def compress (data : List UInt8) : List UInt8 := header ++ store data.length data ++ trailer data

/-- One block: whether it is the last, its data and what follows. -/
def readBlock (input : List UInt8) : Option (Bool × List UInt8 × List UInt8) :=
  let length := fromLeBytes (slice input 1 2)
  if input.length < 5 + length ∨ fromLeBytes (slice input 3 2) + length ≠ BLOCK_LIMIT then none
  else if input.head? = some 1 then some (true, slice input 5 length, input.drop (5 + length))
  else if input.head? = some 0 then some (false, slice input 5 length, input.drop (5 + length))
  else none

def readBlocks : Nat → List UInt8 → Option (List UInt8 × List UInt8)
  | 0, _ => none
  | fuel + 1, input =>
    match readBlock input with
    | none => none
    | some (true, data, rest) => some (data, rest)
    | some (false, data, rest) => (readBlocks fuel rest).map fun more => (data ++ more.1, more.2)

def decompress (input : List UInt8) : Option (List UInt8) :=
  if input.take header.length ≠ header then none
  else
    match readBlocks input.length (input.drop header.length) with
    | none => none
    | some (data, rest) => if rest = trailer data then some data else none

theorem readBlock_storedBlock {final : Bool} {data rest : List UInt8} (h : data.length ≤ BLOCK_LIMIT) :
    readBlock (storedBlock (if final then 1 else 0) data ++ rest) = some (final, data, rest) := by
  have hlimit : BLOCK_LIMIT = 65535 := rfl
  obtain ⟨flag, hflag⟩ : ∃ flag, flag = (if final then 1 else 0 : UInt8) := ⟨_, rfl⟩
  rw [← hflag]
  have hinput : storedBlock flag data ++ rest = [flag] ++ toLeBytes 2 data.length ++
      (toLeBytes 2 (BLOCK_LIMIT - data.length) ++ data ++ rest) := by
    simp [storedBlock]
  have hinput' : storedBlock flag data ++ rest = ([flag] ++ toLeBytes 2 data.length) ++
      toLeBytes 2 (BLOCK_LIMIT - data.length) ++ (data ++ rest) := by
    simp [storedBlock]
  have hinput'' : storedBlock flag data ++ rest = ([flag] ++ toLeBytes 2 data.length ++
      toLeBytes 2 (BLOCK_LIMIT - data.length)) ++ data ++ rest := by
    simp [storedBlock]
  have hlength : fromLeBytes (slice (storedBlock flag data ++ rest) 1 2) = data.length := by
    rw [hinput, slice_middle (by rfl) (toLeBytes_length _ _), fromLeBytes_toLeBytes (by omega)]
  have hcheck : fromLeBytes (slice (storedBlock flag data ++ rest) 3 2) = BLOCK_LIMIT - data.length := by
    rw [hinput', slice_middle (by simp [toLeBytes_length]) (toLeBytes_length _ _), fromLeBytes_toLeBytes (by omega)]
  have hdata : slice (storedBlock flag data ++ rest) 5 data.length = data := by
    rw [hinput'', slice_middle (by simp [toLeBytes_length]) rfl]
  have hrest : (storedBlock flag data ++ rest).drop (5 + data.length) = rest := by
    rw [hinput'', List.drop_left' (by simp [toLeBytes_length]; omega)]
  have hsize : (storedBlock flag data ++ rest).length = 5 + data.length + rest.length := by
    simp [storedBlock, toLeBytes_length]
    omega
  have hhead : (storedBlock flag data ++ rest).head? = some flag := rfl
  unfold readBlock
  dsimp only
  rw [hlength, hcheck, hdata, hrest, hsize, hhead, if_neg (by omega)]
  cases final
  · rw [hflag]
    rfl
  · rw [hflag]
    rfl

theorem readBlocks_store {fuel : Nat} {data rest : List UInt8} (h : data.length ≤ BLOCK_LIMIT * (fuel + 1)) {more : Nat}
    (hmore : fuel < more) : readBlocks more (store fuel data ++ rest) = some (data, rest) := by
  induction fuel generalizing data more with
  | zero =>
    obtain ⟨more, rfl⟩ : ∃ less, more = less + 1 := ⟨more - 1, by omega⟩
    rw [store, readBlocks, show (1 : UInt8) = if true then 1 else 0 from rfl, readBlock_storedBlock (by omega)]
  | succ fuel ih =>
    obtain ⟨more, rfl⟩ : ∃ less, more = less + 1 := ⟨more - 1, by omega⟩
    rw [store]
    by_cases hsmall : data.length ≤ BLOCK_LIMIT
    · rw [if_pos hsmall, readBlocks, show (1 : UInt8) = if true then 1 else 0 from rfl, readBlock_storedBlock hsmall]
    · have htake : (data.take BLOCK_LIMIT).length ≤ BLOCK_LIMIT := by
        rw [List.length_take]
        omega
      have hdrop : (data.drop BLOCK_LIMIT).length ≤ BLOCK_LIMIT * (fuel + 1) := by
        rw [List.length_drop]
        rw [Nat.mul_succ] at h
        omega
      rw [if_neg hsmall, List.append_assoc, readBlocks, show (0 : UInt8) = if false then 1 else 0 from rfl,
        readBlock_storedBlock htake]
      dsimp only
      rw [ih hdrop (by omega), Option.map_some, List.take_append_drop]

theorem length_le_store (fuel : Nat) (data : List UInt8) : data.length ≤ (store fuel data).length := by
  induction fuel generalizing data with
  | zero => simp [store, storedBlock]; omega
  | succ fuel ih =>
    have hdrop := ih (data.drop BLOCK_LIMIT)
    rw [List.length_drop] at hdrop
    rw [store]
    split
    · simp [storedBlock]
      omega
    · simp [storedBlock]
      omega

theorem decompress_compress (data : List UInt8) : decompress (compress data) = some data := by
  have hinput : compress data = header ++ (store data.length data ++ trailer data) := by
    rw [compress, List.append_assoc]
  have hheader : (compress data).take header.length = header := by rw [hinput, List.take_left]
  have hrest : (compress data).drop header.length = store data.length data ++ trailer data := by rw [hinput, List.drop_left]
  have hfuel : data.length < (compress data).length := by
    have hheader : header.length = 10 := rfl
    have hdata := length_le_store data.length data
    rw [hinput, List.length_append, List.length_append]
    omega
  have hlimit : BLOCK_LIMIT = 65535 := rfl
  rw [decompress, if_neg (by rw [hheader]; exact fun h => h rfl), hrest,
    readBlocks_store (by rw [hlimit]; omega) hfuel]
  exact if_pos rfl

def encoder : Encoder decompress := ⟨compress, decompress_compress⟩

end Gzip
