import Splice.Proxy
/-!
# Listings for the operator

The rows of a kernel map come in no order of their own. A listing converts each
row and sorts the rows by the endpoint on their own side: address first, then
port. Rows of one endpoint stay in the order they came in.
-/

namespace Splice

/-- Listed before or beside: by address in the order of its octets, then by
port. -/
def listedFirst (x y : Endpoint) : Bool := (compare x y).isLE

/-- The proxy rows of a kernel map. -/
def proxyListing (rows : List (RawTuple × RawEntry)) : List (Tuple × ProxyEntry) :=
  (rows.map fun (k, v) => (k.tuple, v.entry)).mergeSort fun x y => listedFirst x.1.own y.1.own

/-- The pending destinations of a kernel map. -/
def pendingListing (rows : List (RawEndpoint × RawEndpoint)) : List (Endpoint × Endpoint) :=
  (rows.map fun (k, v) => (k.endpoint, v.endpoint)).mergeSort fun x y => listedFirst x.1 y.1

end Splice
