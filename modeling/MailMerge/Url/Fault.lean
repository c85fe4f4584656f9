import MailMerge.Text.Basic

/-!
# Faults of URLs
-/

namespace MailMerge

/-- Why a text is **no URL**. -/
inductive UrlFault where
  | emptyHost
  | invalidDomain
  | invalidPort
  | invalidIpv4
  | invalidIpv6
  | invalidDomainCharacter
  | relative
  deriving DecidableEq, Repr

/-- The text of a fault. -/
def UrlFault.message : UrlFault → Text
  | .emptyHost => "empty host"
  | .invalidDomain => "invalid international domain name"
  | .invalidPort => "invalid port number"
  | .invalidIpv4 => "invalid IPv4 address"
  | .invalidIpv6 => "invalid IPv6 address"
  | .invalidDomainCharacter => "invalid domain character"
  | .relative => "relative URL without a base"

end MailMerge
