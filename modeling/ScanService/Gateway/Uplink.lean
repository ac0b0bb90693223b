import ScanService.Config.Basic
import ScanService.Http.Url
/-! The way to the gateway: the addresses of its services, and the proxy that stands for an
egress. -/
namespace ScanService.Gateway

def fill (id : List Char) : List Char → List Char
  | '\x7b' :: 'i' :: 'd' :: '\x7d' :: r => id ++ fill id r
  | c :: r => c :: fill id r
  | [] => []

def proxyText (template : String) (egress : Int) : String :=
  String.ofList (fill (Text.Radix.signedChars egress) template.toList)

/-- Where the gateway is, and the template of the proxies. -/
structure Uplink where
  base : String
  template : Option String
deriving DecidableEq, Repr

namespace Uplink

/-- The way to a base address; slashes at its end do not count. -/
def toBase (base : String) (template : Option String) : Uplink where
  base := String.ofList (base.toList.reverse.dropWhile (· = '/')).reverse
  template := template

def ofConfig (c : RemoteConfig) : Uplink := toBase c.gatewayUrl c.proxyTemplate

/-- The proxy of an egress, if there is one. A text without a scheme names a host. Only HTTP and
SOCKS proxies are used; all are spoken to in HTTP, and a SOCKS proxy is not told a user. -/
def proxy? (u : Uplink) (egress : Int) : Except Http.UrlFault (Option Http.Url) :=
  match u.template with
  | none => .ok none
  | some template =>
    let text := proxyText template egress
    let url := match Http.Url.ofText? text with
      | .error .relative | .error .hostless => Http.Url.ofText? ("http://" ++ text)
      | known => known
    url.map fun p =>
      if p.scheme = "http" ∨ p.scheme = "https" then some p
      else if Http.Url.socks.contains p.scheme then some { p with user := none }
      else none

/-- The address for a path below the base. Only HTTP is spoken. -/
def url? (u : Uplink) (path : String) : Except Http.UrlFault Http.Url :=
  match Http.Url.ofText? (u.base ++ path) with
  | .error e => .error e
  | .ok a => if a.scheme = "http" ∨ a.scheme = "https" then .ok a else .error .broken

end Uplink

end ScanService.Gateway
