import MsnGuard.OctetsVarint
import MsnGuard.RustText

/-!
# Frames of the datagram gateway

A datagram travels between the device and a front in a frame with flags, the number of its flow,
and an address with a port. A reply names the address that the device asked about.
-/

namespace MsnGuard.UdpgwFrames

open RustText
open OctetsVarint (beBytes beValue)

/-- The flag of a frame without a datagram. -/
def flagKeepalive : UInt8 := 1

/-- The flag of a frame that moves its number to another flow. -/
def flagRebind : UInt8 := 2

/-- The flag of a query for the resolver of the exit. -/
def flagDns : UInt8 := 4

/-- The flag of a frame with an IPv6 address. -/
def flagIpv6 : UInt8 := 8

/-- A datagram with the address and the port it is for. -/
structure Datagram where
  /-- The address and the port as they stand in the frame. -/
  address : Bytes
  /-- What is sent. -/
  payload : Bytes
  deriving DecidableEq

/-- The port of a datagram, in the last two bytes of its address. -/
def Datagram.port (d : Datagram) : ℕ := beValue (d.address.drop (d.address.length-2))

/-- A frame from the device. -/
structure Frame where
  conid : ℕ
  rebind : Bool
  dns : Bool
  isIpv6 : Bool
  /-- A frame may be too short for a datagram, or have an empty one. -/
  datagram : Option Datagram
  deriving DecidableEq

/-- Read a frame; some are passed over. -/
def parseFrame (body : Bytes) : Option Frame :=
  match body with
  | flags::low::high::rest =>
    if flags &&& flagKeepalive≠0 then none
    else
      let isIpv6 := decide (flags &&& flagIpv6≠0)
      let addressLength := if isIpv6 then 18 else 6
      some
        {conid := beValue [high,low]
         rebind := decide (flags &&& flagRebind≠0)
         dns := decide (flags &&& flagDns≠0)
         isIpv6
         datagram := if rest.length≤addressLength then none
           else some ⟨rest.take addressLength,rest.drop addressLength⟩}
  | _ => none

/-- The frame of a reply, behind its length. -/
def replyFrame (conid : ℕ) (isIpv6 : Bool) (clientAddress payload : Bytes) : Bytes :=
  let body := [if isIpv6 then flagIpv6 else 0]++(beBytes 2 conid).reverse++clientAddress++payload
  (beBytes 2 body.length).reverse++body

end MsnGuard.UdpgwFrames
