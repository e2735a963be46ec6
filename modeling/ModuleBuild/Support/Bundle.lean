import ModuleBuild.Text.Basic

/-!
# Bundled support files

Generated code needs a build script and a few headers, which are part of the library. `SupportFile`
enumerates them, `SupportFile.text` is what they hold.
-/

namespace ModuleBuild

/-- The bundled files. -/
inductive SupportFile where
  /-- The build script, which compiles all sources of the output tree into one program. -/
  | buildScript
  /-- The header for records. -/
  | anyMap
  /-- The header for functions and partial application. -/
  | bind
  /-- The header for shared values. -/
  | memory
  /-- The header that includes all others. -/
  | umbrella
  /-- The header for arrays. -/
  | sharedList
deriving DecidableEq, Repr

namespace SupportFile

/-- The name of a file in the bundle. -/
def name : SupportFile → Text
  | buildScript => "CMakeLists.txt"
  | anyMap => "any_map.hh"
  | bind => "bind.hh"
  | memory => "memory.hh"
  | umbrella => "purescript.hh"
  | sharedList => "shared_list.hh"

/-- The name that a header gets in the output tree. -/
def outputName : SupportFile → Text
  | umbrella => "PureScript.hh"
  | file => file.name

/-- The lines of `buildScript`. -/
def buildScriptLines : List String :=
  ["cmake_minimum_required (VERSION 3.0)",
    "project (Main)",
    "file (GLOB_RECURSE SRCS *.cc)",
    "file (GLOB_RECURSE HDRS *.hh)",
    "add_executable (Main $\x7bSRCS\x7d $\x7bHDRS\x7d)",
    "include_directories ($\x7bCMAKE_CURRENT_SOURCE_DIR\x7d)",
    "set (CMAKE_CXX_FLAGS $\x7bCMAKE_CXX_FLAGS\x7d \"-std=c++14\")"]

/-- The lines of `anyMap`. -/
def anyMapLines : List String :=
  ["#ifndef PureScript_any_map_HH",
    "#define PureScript_any_map_HH",
    "",
    "#include <map>",
    "#include <string>",
    "#include <utility>",
    "",
    "#include \"memory.hh\"",
    "",
    "namespace PureScript \x7b",
    "",
    "// String-keyed record storage for values of erased type.",
    "template <typename V>",
    "class any_map \x7b",
    "  managed<const std::map<std::string, V>> fields_;",
    "",
    "public:",
    "  any_map() : fields_(make_managed<const std::map<std::string, V>>()) \x7b\x7d",
    "  explicit any_map(std::map<std::string, V>&& fields)",
    "      : fields_(make_managed<const std::map<std::string, V>>(std::move(fields))) \x7b\x7d",
    "",
    "  auto at(const std::string& key) const -> const V& \x7b return fields_->at(key); \x7d",
    "  auto contains(const std::string& key) const -> bool \x7b",
    "    return fields_->find(key) != fields_->end();",
    "  \x7d",
    "",
    "  auto with(const std::string& key, V value) const -> any_map \x7b",
    "    std::map<std::string, V> out(*fields_);",
    "    out[key] = std::move(value);",
    "    return any_map(std::move(out));",
    "  \x7d",
    "\x7d;",
    "",
    "\x7d // namespace PureScript",
    "",
    "#endif // PureScript_any_map_HH"]

/-- The lines of `bind`. -/
def bindLines : List String :=
  ["#ifndef PureScript_bind_HH",
    "#define PureScript_bind_HH",
    "",
    "#include <functional>",
    "#include <utility>",
    "",
    "namespace PureScript \x7b",
    "",
    "// Partially apply the leading argument of a callable.",
    "template <typename F, typename A>",
    "inline auto bind_first(F&& f, A&& a) \x7b",
    "  return [f = std::forward<F>(f), a = std::forward<A>(a)](auto&&... rest) \x7b",
    "    return f(a, std::forward<decltype(rest)>(rest)...);",
    "  \x7d;",
    "\x7d",
    "",
    "template <typename R, typename... Args>",
    "using fn = std::function<R(Args...)>;",
    "",
    "\x7d // namespace PureScript",
    "",
    "#endif // PureScript_bind_HH"]

/-- The lines of `memory`. -/
def memoryLines : List String :=
  ["#ifndef PureScript_memory_HH",
    "#define PureScript_memory_HH",
    "",
    "#include <memory>",
    "#include <utility>",
    "",
    "namespace PureScript \x7b",
    "",
    "template <typename T>",
    "using managed = std::shared_ptr<T>;",
    "",
    "template <typename T, typename... Args>",
    "inline auto make_managed(Args&&... args) -> managed<T> \x7b",
    "  return std::make_shared<T>(std::forward<Args>(args)...);",
    "\x7d",
    "",
    "template <typename T>",
    "using weak = std::weak_ptr<T>;",
    "",
    "\x7d // namespace PureScript",
    "",
    "#endif // PureScript_memory_HH"]

/-- The lines of `umbrella`. -/
def umbrellaLines : List String :=
  ["#ifndef PureScript_HH",
    "#define PureScript_HH",
    "",
    "#include <string>",
    "",
    "#include \"memory.hh\"",
    "#include \"bind.hh\"",
    "#include \"shared_list.hh\"",
    "#include \"any_map.hh\"",
    "",
    "namespace PureScript \x7b",
    "",
    "using string = std::string;",
    "",
    "template <typename T>",
    "inline auto cast(const T& value) -> const T& \x7b return value; \x7d",
    "",
    "\x7d // namespace PureScript",
    "",
    "#endif // PureScript_HH"]

/-- The lines of `sharedList`. -/
def sharedListLines : List String :=
  ["#ifndef PureScript_shared_list_HH",
    "#define PureScript_shared_list_HH",
    "",
    "#include <cstddef>",
    "#include <initializer_list>",
    "#include <memory>",
    "#include <vector>",
    "",
    "namespace PureScript \x7b",
    "",
    "// Immutable array value with shared storage; copies are O(1).",
    "template <typename T>",
    "class shared_list \x7b",
    "  std::shared_ptr<const std::vector<T>> items_;",
    "",
    "public:",
    "  shared_list() : items_(std::make_shared<const std::vector<T>>()) \x7b\x7d",
    "  shared_list(std::initializer_list<T> items)",
    "      : items_(std::make_shared<const std::vector<T>>(items)) \x7b\x7d",
    "  explicit shared_list(std::vector<T>&& items)",
    "      : items_(std::make_shared<const std::vector<T>>(std::move(items))) \x7b\x7d",
    "",
    "  auto size() const -> std::size_t \x7b return items_->size(); \x7d",
    "  auto empty() const -> bool \x7b return items_->empty(); \x7d",
    "  auto operator[](std::size_t i) const -> const T& \x7b return (*items_)[i]; \x7d",
    "  auto begin() const \x7b return items_->cbegin(); \x7d",
    "  auto end() const \x7b return items_->cend(); \x7d",
    "",
    "  auto cons(const T& head) const -> shared_list \x7b",
    "    std::vector<T> out;",
    "    out.reserve(size() + 1);",
    "    out.push_back(head);",
    "    out.insert(out.end(), begin(), end());",
    "    return shared_list(std::move(out));",
    "  \x7d",
    "\x7d;",
    "",
    "\x7d // namespace PureScript",
    "",
    "#endif // PureScript_shared_list_HH"]

/-- The lines of a file. -/
def lines : SupportFile → List String
  | buildScript => buildScriptLines
  | anyMap => anyMapLines
  | bind => bindLines
  | memory => memoryLines
  | umbrella => umbrellaLines
  | sharedList => sharedListLines

/-- What a file holds: its lines, each with its end. -/
def text (file : SupportFile) : Text :=
  file.lines.flatMap fun line => Text.ofString line ++ [.scalar '\n']

end SupportFile

/-- The headers among the bundled files, in the order in which they are written. -/
def supportHeaders : List SupportFile := [.anyMap, .bind, .memory, .umbrella, .sharedList]

end ModuleBuild
