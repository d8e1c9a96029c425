import Clearing.Address.Network
import Clearing.Address.Base58
import Clearing.Address.Bech32

/-!
# Bitcoin addresses

An address is either the hash of a key or a script, written in base 58 with a
checksum, or a witness program, written in Bech32. The first byte or the
prefix says which networks it is for. Reading an address checks its form;
`decode` also checks that it is for the network asked for.
-/

namespace Clearing

inductive LegacyKind
  | keyHash
  | scriptHash
deriving DecidableEq, Repr

inductive WitnessPrefix
  | main
  | test
  | regtest
deriving DecidableEq, Repr

inductive Address
  /-- `test` tells the addresses of the test networks from those of the main network. -/
  | legacy (kind : LegacyKind) (test : Bool) (hash : List UInt8)
  | witness (pfx : WitnessPrefix) (version : Nat) (program : List UInt8)
deriving DecidableEq, Repr

inductive AddressFault
  | base58
  | unknownPrefix
  | legacyTooLong
  | legacyLength
  | legacyPrefix
  | otherNetwork
deriving DecidableEq, Repr

def AddressFault.message : AddressFault → String
  | .base58 => "base58 error"
  | .unknownPrefix => "tried to parse an unknown hrp"
  | .legacyTooLong => "legacy address base58 string"
  | .legacyLength => "legacy address base58 data"
  | .legacyPrefix => "legacy address base58 prefix"
  | .otherNetwork => "validation error"

def WitnessPrefix.text : WitnessPrefix → String
  | .main => "bc"
  | .test => "tb"
  | .regtest => "bcrt"

def WitnessPrefix.ofChars? (cs : List Char) : Option WitnessPrefix :=
  if cs = "bc".toList then some .main
  else if cs = "tb".toList then some .test
  else if cs = "bcrt".toList then some .regtest
  else none

namespace Address

def legacyByte : LegacyKind → Bool → UInt8
  | .keyHash, false => 0
  | .scriptHash, false => 5
  | .keyHash, true => 111
  | .scriptHash, true => 196

def ofLegacyByte? (b : UInt8) : Option (LegacyKind × Bool) :=
  if b = 0 then some (.keyHash, false)
  else if b = 5 then some (.scriptHash, false)
  else if b = 111 then some (.keyHash, true)
  else if b = 196 then some (.scriptHash, true)
  else none

def checksumOf (version : Nat) : Bech32.Checksum :=
  if version = 0 then .first else .second

def text : Address → String
  | .legacy kind test hash => String.ofList (Base58.encodeChecked (legacyByte kind test :: hash))
  | .witness pfx version program =>
    String.ofList (Bech32.encode (checksumOf version) pfx.text.toList
      (version :: Bech32.ofBytes program))

/-- A witness program has 2 to 40 bytes, of version 0 it has 20 or 32. -/
def programFits (version : Nat) (program : List UInt8) : Bool :=
  2 ≤ program.length && program.length ≤ 40 &&
    (version != 0 || program.length == 20 || program.length == 32)

def parseWitness? (cs : List Char) : Option (List Char × Nat × List UInt8) := do
  if 90 < cs.length then none
  let (hrp, data) ← Bech32.split? cs
  let version ← data.head?
  if 16 < version then none
  if data.length < 7 then none
  if !Bech32.verify (checksumOf version) hrp data then none
  let program ← Bech32.toBytes? ((data.drop 1).take (data.length - 7))
  if programFits version program then some (hrp, version, program) else none

def parseLegacy (s : String) : Except AddressFault Address :=
  if 50 < s.utf8ByteSize then .error .legacyTooLong
  else
    match Base58.decodeChecked? s.toList with
    | none => .error .base58
    | some bytes =>
      if bytes.length ≠ 21 then .error .legacyLength
      else
        match bytes with
        | [] => .error .legacyLength
        | b :: hash =>
          match ofLegacyByte? b with
          | some (kind, test) => .ok (.legacy kind test hash)
          | none => .error .legacyPrefix

def parse (s : String) : Except AddressFault Address :=
  match parseWitness? s.toList with
  | some (hrp, version, program) =>
    match WitnessPrefix.ofChars? hrp with
    | some pfx => .ok (.witness pfx version program)
    | none => .error .unknownPrefix
  | none => parseLegacy s

def isFor : Address → Network → Bool
  | .legacy _ test _, network => test == (network != .mainnet)
  | .witness .main _ _, network => network == .mainnet
  | .witness .test _ _, network => network == .testnet || network == .signet
  | .witness .regtest _ _, network => network == .regtest

def decode (s : String) (network : Network) : Except AddressFault Address :=
  match parse s with
  | .error e => .error e
  | .ok a => if a.isFor network then .ok a else .error .otherNetwork

end Address
end Clearing
