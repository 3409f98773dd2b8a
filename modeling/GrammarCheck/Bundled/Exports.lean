import GrammarCheck.Bundled.Fig
import GrammarCheck.Bundled.Nyx

/-! The symbols under which the bundled languages can be found. Beside the languages themselves there
are a symbol that gives no language and one for each of several versions of the interface. -/
namespace GrammarCheck.Bundled

def exports : List (String × Option Language) := [
  ("tree_sitter_fig", some (Fig.language 15)),
  ("tree_sitter_nyx", some Nyx.language),
  ("tree_sitter_null", none),
  ("tree_sitter_fig_0", some (Fig.language 0)),
  ("tree_sitter_fig_12", some (Fig.language 12)),
  ("tree_sitter_fig_13", some (Fig.language 13)),
  ("tree_sitter_fig_14", some (Fig.language 14)),
  ("tree_sitter_fig_16", some (Fig.language 16))]

end GrammarCheck.Bundled
