import LivePage.CommandLine.Arguments

/-!
# Help texts

What the program prints about itself and its commands.
-/

namespace LivePage

namespace CommandLine

/-- The list of commands. -/
def commandList : List String :=
  ["Commands:",
   "  render      渲染一个页面文件",
   "  components  列出已注册组件",
   "  sync        按同步请求写入预览工程",
   "  help        Print this message or the help of the given subcommand(s)"]

/-- The lines of a help text. -/
def helpLines : Topic → List String
  | .program =>
    ["Render page-builder component trees", "", "Usage: page-render [OPTIONS] <COMMAND>", ""] ++
      commandList ++
      ["", "Options:",
       "      --config <CONFIG>  引擎配置文件 [default: engine.json]",
       "  -h, --help             Print help"]
  | .render =>
    ["渲染一个页面文件", "", "Usage: page-render render [OPTIONS] <PAGE>", "",
     "Arguments:",
     "  <PAGE>  ", "",
     "Options:",
     "      --engine <ENGINE>  覆盖配置中的表达式引擎 [possible values: path, js]",
     "      --fetch            渲染前通过 HTTP 加载数据源",
     "      --format <FORMAT>  [default: html] [possible values: html, json]",
     "  -o, --output <OUTPUT>  输出文件，缺省打印到标准输出",
     "  -h, --help             Print help"]
  | .components =>
    ["列出已注册组件", "", "Usage: page-render components", "",
     "Options:",
     "  -h, --help  Print help"]
  | .sync =>
    ["按同步请求写入预览工程", "", "Usage: page-render sync [OPTIONS] <REQUEST>", "",
     "Arguments:",
     "  <REQUEST>  ", "",
     "Options:",
     "      --target <TARGET>  ",
     "  -h, --help             Print help"]
  | .help =>
    ["Print this message or the help of the given subcommand(s)", "",
     "Usage: page-render help [COMMAND]...", "",
     "Arguments:",
     "  [COMMAND]...  Print help for the subcommand(s)"]

/-- A help text. -/
def helpText (topic : Topic) : String := String.join ((helpLines topic).map (· ++ "\n"))

end CommandLine

end LivePage
