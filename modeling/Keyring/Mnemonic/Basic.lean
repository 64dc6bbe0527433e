import Keyring.Hash.Hmac
import Keyring.Key.Extended
import Keyring.Mnemonic.Words
import Keyring.Text.Blank
import Keyring.Text.Compatibility
import Keyring.Text.Utf8

/-!
# Mnemonics

A mnemonic is a list of 12, 15, 18, 21 or 24 words. Joined by blanks and decomposed, it has to be a
phrase of listed words whose last bits are a checksum over the others (`Mnemonic.fault?`). Entropy
determines such words, and the phrase determines a seed, hence a tree of keys.
-/

namespace Keyring

namespace Mnemonic

/-- The possible numbers of words. -/
def wordCounts : List Nat := [12, 15, 18, 21, 24]

/-- The checksum of entropy that `words` words hold: one bit for every three words. -/
def checksum (words : Nat) (entropy : Bytes) : Nat :=
  ((Hash.sha256 entropy).headD 0).toNat >>> (8 - words / 3)

/-- Whether word numbers carry the checksum of the entropy that they hold. -/
def checksumFits (numbers : List Nat) : Bool :=
  let n := numbers.length
  let bits := Radix.value 2048 numbers
  bits % (1 <<< (n / 3)) = checksum n (Bytes.ofNat (n / 3 * 4) (bits >>> (n / 3)))

/-- The words of a phrase once it is decomposed. -/
def plainWords (phrase : Text) : List Text :=
  (Text.Compatibility.decompose phrase).splitOn ' '

/-- Whether a phrase consists of a possible number of listed words with the right checksum. -/
def isPhrase (phrase : Text) : Bool :=
  match (plainWords phrase).mapM Words.index? with
  | some numbers => wordCounts.contains numbers.length && checksumFits numbers
  | none => false

/-- What is wrong with a list of words. -/
def fault? (words : List Text) : Option Fault :=
  if words.length ∉ wordCounts then some .phraseLength
  else if words.any List.isEmpty then some .emptyWord
  else if isPhrase (Text.joinWith ' ' words) then none
  else some .phraseRejected

end Mnemonic

/-- A mnemonic: words with which nothing is wrong. -/
structure Mnemonic where
  words : List Text
  sound : Mnemonic.fault? words = none

namespace Mnemonic

/-- The mnemonic of the given words. -/
def ofWords (words : List Text) : Outcome Mnemonic :=
  match h : fault? words with
  | none => .ok ⟨words, h⟩
  | some f => .error f

/-- Read a phrase: blanks at its ends are ignored, and one blank separates two words. -/
def ofPhrase (phrase : Text) : Outcome Mnemonic :=
  ofWords (phrase.trim.splitOn ' ')

/-- The words joined by blanks. -/
def phrase (m : Mnemonic) : Text :=
  Text.joinWith ' ' m.words

/-- A description that leaves the words out. -/
def describe (m : Mnemonic) : Text :=
  "Mnemonic(<".toList ++ Text.ofNat m.words.length ++ " words>)".toList

/-- Building again from the words of a mnemonic gives it back. -/
theorem ofWords_words (m : Mnemonic) : ofWords m.words = .ok m := by
  obtain ⟨words, sound⟩ := m
  unfold ofWords
  split
  · rfl
  · rename_i h
    rw [sound] at h
    cases h

/-! ### Entropy -/

/-- The bytes of entropy that `count` words hold. -/
def entropyLength (count : Int) : Outcome Nat :=
  if count.toNat ∈ wordCounts then .ok (count.toNat / 3 * 4) else .error .phraseLength

/-- The words of 16, 20, 24, 28 or 32 bytes of entropy. -/
def entropyWords (entropy : Bytes) : List Text :=
  let n := entropy.length / 4 * 3
  let bits := (entropy.toNat <<< (n / 3)) + checksum n entropy
  (Radix.fixed 2048 n bits).map fun i => Words.all.getD i []

/-- The mnemonic of entropy. -/
def ofEntropy (entropy : Bytes) : Outcome Mnemonic :=
  ofWords (entropyWords entropy)

/-! ### Seed and root -/

/-- The seed, 64 bytes stretched from the decomposed phrase without a passphrase. -/
def seed (m : Mnemonic) : Bytes :=
  Hash.stretch (Text.Utf8.encode (Text.Compatibility.decompose m.phrase))
    (Text.Utf8.encode "mnemonic".toList) 2048

/-- The root of the tree of keys. -/
def masterKey (m : Mnemonic) : Outcome ExtendedKey :=
  ExtendedKey.master m.seed

/-- The text of the private root. -/
def rootPrivate (m : Mnemonic) : Outcome Text := do
  (← m.masterKey).toText

/-- The text of the public root. -/
def rootPublic (m : Mnemonic) : Outcome Text := do
  (← (← m.masterKey).neuter).toText

end Mnemonic

end Keyring
