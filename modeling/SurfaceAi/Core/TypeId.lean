/-! Type ids: the 64-bit FNV-1a hash of a name's bytes. -/

namespace SurfaceAi

abbrev TypeId := UInt64

def fnv1aHash (name : String) : TypeId :=
  name.toUTF8.data.toList.foldl (fun hash byte => (hash ^^^ byte.toUInt64) * 1099511628211)
    14695981039346656037

end SurfaceAi
