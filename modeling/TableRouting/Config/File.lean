import TableRouting.Config.Decode
import TableRouting.Toml.Document

/-!
# Configuration files

A configuration file is a TOML document. Reading only decodes it; whether the
settings make sense is asked when a sink is opened, so that settings may still be
changed in between.
-/

namespace TableRouting.Config

def ofToml? (text : String) : Option Config :=
  (Toml.parse? text).bind (ofValue? .toml)

end TableRouting.Config
