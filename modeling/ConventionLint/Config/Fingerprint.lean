import ConventionLint.Config.Basic
import ConventionLint.Hash.SipHash

/-!
# Fingerprints

A short text by which configurations are told apart in reports: the hash of a byte encoding. The
encoding leaves out whether an analysis runs in parallel, which cannot change its result.
-/
namespace ConventionLint

namespace Fingerprint

/-- A text ends in a byte that no text contains. -/
def ofText (s : String) : List UInt8 :=
  s.toUTF8.toList ++ [0xff]

/-- A number takes eight bytes, the lowest first. -/
def ofNat (n : Nat) : List UInt8 :=
  (List.range 8).map fun i => (n >>> (8 * i)).toUInt8

def ofBool (b : Bool) : List UInt8 :=
  [if b then 1 else 0]

def ofOption {α : Type} (encode : α → List UInt8) : Option α → List UInt8
  | none => ofNat 0
  | some a => ofNat 1 ++ encode a

def ofSeverity : Severity → List UInt8
  | .warning => ofNat 0
  | .error => ofNat 1

def ofMarkers (m : MarkerIdentities) : List UInt8 :=
  ofNat MarkerKind.all.length
    ++ MarkerKind.all.flatMap (fun kind => ofText kind.text ++ ofText (m.identity kind))
    ++ ofBool m.strict

def ofRule (code : String) (o : RuleOverride) : List UInt8 :=
  ofText code ++ ofBool o.enabled ++ ofOption ofSeverity o.severity

end Fingerprint

namespace Config

open Fingerprint

def encoding (c : Config) : List UInt8 :=
  ofText c.version ++ ofMarkers c.markers ++ c.rules.flatMap (fun (code, o) => ofRule code o)
    ++ ofBool c.reportInternalErrors ++ ofNat c.patterns.length ++ c.patterns.flatMap ofText
    ++ ofOption ofText c.ignoreFile

/-- The hash of the encoding in hexadecimal digits. -/
def fingerprint (c : Config) : String :=
  String.ofList (Nat.toDigits 16 (SipHash.hash 0 0 c.encoding).toNat)

end Config

end ConventionLint
