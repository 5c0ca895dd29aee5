import Aawgd.Uevent
import Mathlib.Algebra.Group.Int.Defs

/-! The configuration as it is read from the environment. -/
namespace Aawgd

inductive SecurityMode where
  | unknownSecurityMode | openNetwork | wep64 | wep128 | wpaPersonal | wpa2Personal
  | wpaWpa2Personal | wpaEnterprise | wpa2Enterprise | wpaWpa2Enterprise
  deriving DecidableEq

def SecurityMode.number : SecurityMode → Int
  | .unknownSecurityMode => 0
  | .openNetwork => 1
  | .wep64 => 2
  | .wep128 => 3
  | .wpaPersonal => 4
  | .wpa2Personal => 8
  | .wpaWpa2Personal => 12
  | .wpaEnterprise => 20
  | .wpa2Enterprise => 24
  | .wpaWpa2Enterprise => 28

inductive AccessPointType where
  | static | dynamic
  deriving DecidableEq

def AccessPointType.number : AccessPointType → Int
  | .static => 0
  | .dynamic => 1

structure WifiInfo where
  ssid : Bytes
  key : Bytes
  bssid : Bytes
  securityMode : SecurityMode
  accessPointType : AccessPointType
  ipAddress : Bytes
  port : Int
  deriving DecidableEq

def isSpace (c : UInt8) : Bool := c == 32 || 9 ≤ c && c ≤ 13

def isDigit (c : UInt8) : Bool := 48 ≤ c && c ≤ 57

def digitsValue (digits : Bytes) : Nat :=
  digits.foldl (fun n c => 10 * n + (c.toNat - 48)) 0

def sign : Bytes → Int × Bytes
  | 45 :: rest => (-1, rest)
  | 43 :: rest => (1, rest)
  | s => (1, s)

/-- `std::stoi`, without a result where it throws. -/
def stoi (s : Bytes) : Option Int :=
  let (factor, rest) := sign (s.dropWhile isSpace)
  let digits := rest.takeWhile isDigit
  let value := factor * digitsValue digits
  if digits = [] then none
  else if -2 ^ 31 ≤ value ∧ value < 2 ^ 31 then some value
  else none

/-- What the daemon reads its configuration from: the environment variables, and the
first line of the interface's address file. -/
structure Environment where
  getenv : Bytes → Option Bytes
  macAddress : Bytes

namespace Config
variable (e : Environment)

def getenvString (name defaultValue : Bytes) : Bytes := (e.getenv name).getD defaultValue

def getenvInt (name : Bytes) (defaultValue : Int) : Int :=
  match e.getenv name with
  | none => defaultValue
  | some value => (stoi value).getD defaultValue

def getWifiInfo : WifiInfo where
  ssid := getenvString e (bytes "AAWG_WIFI_SSID") (bytes "AAWirelessDongle")
  key := getenvString e (bytes "AAWG_WIFI_PASSWORD") (bytes "ConnectAAWirelessDongle")
  bssid := getenvString e (bytes "AAWG_WIFI_BSSID") e.macAddress
  securityMode := .wpa2Personal
  accessPointType := .dynamic
  ipAddress := getenvString e (bytes "AAWG_PROXY_IP_ADDRESS") (bytes "10.0.0.1")
  port := getenvInt e (bytes "AAWG_PROXY_PORT") 5288

end Config

example : stoi (bytes " -12x") = some (-12) := by decide
example : stoi (bytes "2147483648") = none := by decide

end Aawgd
