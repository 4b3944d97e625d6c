import TypedWrappers.Text.Hex

/-!
# SHA-256

The digest of a text: the bytes of its UTF-8 form, padded to blocks of 64, are mixed block by block into eight words.

- `Sha256.digest`: the digest of bytes; `Sha256.ofText`: that of a text, in hexadecimal.
-/

namespace TypedWrappers.Sha256

/-- The words that a digest starts from. -/
def initial : List UInt32 :=
  [0x6a09e667, 0xbb67ae85, 0x3c6ef372, 0xa54ff53a, 0x510e527f, 0x9b05688c, 0x1f83d9ab, 0x5be0cd19]

/-- The constants of the 64 rounds. -/
def roundConstants : List UInt32 :=
  [0x428a2f98, 0x71374491, 0xb5c0fbcf, 0xe9b5dba5, 0x3956c25b, 0x59f111f1, 0x923f82a4, 0xab1c5ed5,
    0xd807aa98, 0x12835b01, 0x243185be, 0x550c7dc3, 0x72be5d74, 0x80deb1fe, 0x9bdc06a7, 0xc19bf174,
    0xe49b69c1, 0xefbe4786, 0x0fc19dc6, 0x240ca1cc, 0x2de92c6f, 0x4a7484aa, 0x5cb0a9dc, 0x76f988da,
    0x983e5152, 0xa831c66d, 0xb00327c8, 0xbf597fc7, 0xc6e00bf3, 0xd5a79147, 0x06ca6351, 0x14292967,
    0x27b70a85, 0x2e1b2138, 0x4d2c6dfc, 0x53380d13, 0x650a7354, 0x766a0abb, 0x81c2c92e, 0x92722c85,
    0xa2bfe8a1, 0xa81a664b, 0xc24b8b70, 0xc76c51a3, 0xd192e819, 0xd6990624, 0xf40e3585, 0x106aa070,
    0x19a4c116, 0x1e376c08, 0x2748774c, 0x34b0bcb5, 0x391c0cb3, 0x4ed8aa4a, 0x5b9cca4f, 0x682e6ff3,
    0x748f82ee, 0x78a5636f, 0x84c87814, 0x8cc70208, 0x90befffa, 0xa4506ceb, 0xbef9a3f7, 0xc67178f2]

/-- A word rotated to the right. -/
def rotate (n : UInt32) (w : UInt32) : UInt32 :=
  (w >>> n) ||| (w <<< (32 - n))

/-- The word that four bytes write, the first one highest. -/
def wordOf (bytes : List UInt8) : UInt32 :=
  bytes.foldl (fun w b => (w <<< 8) ||| b.toUInt32) 0

/-- The four bytes of a word, the highest first. -/
def bytesOf (w : UInt32) : List UInt8 :=
  [(w >>> 24).toUInt8, (w >>> 16).toUInt8, (w >>> 8).toUInt8, w.toUInt8]

/-- The word that the next sixteen words of the schedule lead to. -/
def nextWord (window : List UInt32) : UInt32 :=
  let word (i : Nat) : UInt32 := window.getD i 0
  let low := rotate 7 (word 1) ^^^ rotate 18 (word 1) ^^^ (word 1 >>> 3)
  let high := rotate 17 (word 14) ^^^ rotate 19 (word 14) ^^^ (word 14 >>> 10)
  word 0 + low + word 9 + high

/-- One round: the eight words mixed with a constant and a word of the schedule. -/
def mix (state : List UInt32) (constant word : UInt32) : List UInt32 :=
  match state with
  | [a, b, c, d, e, f, g, h] =>
    let high := rotate 6 e ^^^ rotate 11 e ^^^ rotate 25 e
    let choice := (e &&& f) ^^^ ((~~~e) &&& g)
    let first := h + high + choice + constant + word
    let low := rotate 2 a ^^^ rotate 13 a ^^^ rotate 22 a
    let majority := (a &&& b) ^^^ (a &&& c) ^^^ (b &&& c)
    [first + low + majority, a, b, c, d + first, e, f, g]
  | state => state

/-- All rounds; `window` holds the next sixteen words of the schedule. -/
def rounds (state window : List UInt32) : List UInt32 → List UInt32
  | [] => state
  | constant :: rest =>
    rounds (mix state constant (window.headD 0)) (window.drop 1 ++ [nextWord window]) rest

/-- The pieces of a list, `n` items each, for at most `fuel` pieces. -/
def pieces {α : Type} (n : Nat) : (fuel : Nat) → List α → List (List α)
  | 0, _ => []
  | _ + 1, [] => []
  | fuel + 1, items => items.take n :: pieces n fuel (items.drop n)

/-- The words after one more block. -/
def compress (state : List UInt32) (block : List UInt8) : List UInt32 :=
  List.zipWith (· + ·) state (rounds state ((pieces 4 16 block).map wordOf) roundConstants)

/-- The bytes behind a message: a one bit, zeros to the end of a block less eight bytes, and the length in bits. -/
def padding (length : Nat) : List UInt8 :=
  let zeros := (119 - length % 64) % 64
  let lengthBytes := (List.range 8).reverse.map fun i => UInt8.ofNat ((8 * length) >>> (8 * i))
  0x80 :: List.replicate zeros 0 ++ lengthBytes

/-- The digest of bytes, 32 bytes. -/
def digest (message : List UInt8) : List UInt8 :=
  let padded := message ++ padding message.length
  ((pieces 64 padded.length padded).foldl compress initial).flatMap bytesOf

/-- Bytes in hexadecimal, two digits each. -/
def hex (bytes : List UInt8) : String :=
  String.ofList <| bytes.flatMap fun b => [Text.lowerHexDigit (b.toNat / 16), Text.lowerHexDigit (b.toNat % 16)]

/-- The digest of a text in hexadecimal. -/
def ofText (s : String) : String :=
  hex (digest s.toUTF8.toList)

end TypedWrappers.Sha256
