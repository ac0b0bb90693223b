import ScanService.Config.Basic
import ScanService.Toml.Reader
/-! Configurations from files. -/
namespace ScanService

def Config.ofToml? (text : String) : Option Config := (Toml.ofText text).bind Config.ofJson?

end ScanService
