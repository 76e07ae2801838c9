import CssColor.Color.Hex
import CssColor.Text.Lowercase

/-! # Colors: keywords

The color keywords of CSS. `Keyword.level3` holds the names of the third level in alphabetical
order; `rebeccapurple` is the one name the fourth level added. `Keyword.byDigits` is the table of
the third level for the other direction, from the six digits of a color to the name it goes by; a
color with several names goes by the last of them. -/

namespace CssColor.Keyword

/-- The names of the third level. -/
def level3 : List (String × Rgb) := [
    ("aliceblue", ⟨240, 248, 255⟩), ("antiquewhite", ⟨250, 235, 215⟩), ("aqua", ⟨0, 255, 255⟩),
    ("aquamarine", ⟨127, 255, 212⟩), ("azure", ⟨240, 255, 255⟩), ("beige", ⟨245, 245, 220⟩),
    ("bisque", ⟨255, 228, 196⟩), ("black", ⟨0, 0, 0⟩), ("blanchedalmond", ⟨255, 235, 205⟩),
    ("blue", ⟨0, 0, 255⟩), ("blueviolet", ⟨138, 43, 226⟩), ("brown", ⟨165, 42, 42⟩),
    ("burlywood", ⟨222, 184, 135⟩), ("cadetblue", ⟨95, 158, 160⟩), ("chartreuse", ⟨127, 255, 0⟩),
    ("chocolate", ⟨210, 105, 30⟩), ("coral", ⟨255, 127, 80⟩), ("cornflowerblue", ⟨100, 149, 237⟩),
    ("cornsilk", ⟨255, 248, 220⟩), ("crimson", ⟨220, 20, 60⟩), ("cyan", ⟨0, 255, 255⟩),
    ("darkblue", ⟨0, 0, 139⟩), ("darkcyan", ⟨0, 139, 139⟩), ("darkgoldenrod", ⟨184, 134, 11⟩),
    ("darkgray", ⟨169, 169, 169⟩), ("darkgreen", ⟨0, 100, 0⟩), ("darkgrey", ⟨169, 169, 169⟩),
    ("darkkhaki", ⟨189, 183, 107⟩), ("darkmagenta", ⟨139, 0, 139⟩),
    ("darkolivegreen", ⟨85, 107, 47⟩), ("darkorange", ⟨255, 140, 0⟩),
    ("darkorchid", ⟨153, 50, 204⟩), ("darkred", ⟨139, 0, 0⟩), ("darksalmon", ⟨233, 150, 122⟩),
    ("darkseagreen", ⟨143, 188, 143⟩), ("darkslateblue", ⟨72, 61, 139⟩),
    ("darkslategray", ⟨47, 79, 79⟩), ("darkslategrey", ⟨47, 79, 79⟩),
    ("darkturquoise", ⟨0, 206, 209⟩), ("darkviolet", ⟨148, 0, 211⟩), ("deeppink", ⟨255, 20, 147⟩),
    ("deepskyblue", ⟨0, 191, 255⟩), ("dimgray", ⟨105, 105, 105⟩), ("dimgrey", ⟨105, 105, 105⟩),
    ("dodgerblue", ⟨30, 144, 255⟩), ("firebrick", ⟨178, 34, 34⟩), ("floralwhite", ⟨255, 250, 240⟩),
    ("forestgreen", ⟨34, 139, 34⟩), ("fuchsia", ⟨255, 0, 255⟩), ("gainsboro", ⟨220, 220, 220⟩),
    ("ghostwhite", ⟨248, 248, 255⟩), ("gold", ⟨255, 215, 0⟩), ("goldenrod", ⟨218, 165, 32⟩),
    ("gray", ⟨128, 128, 128⟩), ("green", ⟨0, 128, 0⟩), ("greenyellow", ⟨173, 255, 47⟩),
    ("grey", ⟨128, 128, 128⟩), ("honeydew", ⟨240, 255, 240⟩), ("hotpink", ⟨255, 105, 180⟩),
    ("indianred", ⟨205, 92, 92⟩), ("indigo", ⟨75, 0, 130⟩), ("ivory", ⟨255, 255, 240⟩),
    ("khaki", ⟨240, 230, 140⟩), ("lavender", ⟨230, 230, 250⟩), ("lavenderblush", ⟨255, 240, 245⟩),
    ("lawngreen", ⟨124, 252, 0⟩), ("lemonchiffon", ⟨255, 250, 205⟩), ("lightblue", ⟨173, 216, 230⟩),
    ("lightcoral", ⟨240, 128, 128⟩), ("lightcyan", ⟨224, 255, 255⟩),
    ("lightgoldenrodyellow", ⟨250, 250, 210⟩), ("lightgray", ⟨211, 211, 211⟩),
    ("lightgreen", ⟨144, 238, 144⟩), ("lightgrey", ⟨211, 211, 211⟩), ("lightpink", ⟨255, 182, 193⟩),
    ("lightsalmon", ⟨255, 160, 122⟩), ("lightseagreen", ⟨32, 178, 170⟩),
    ("lightskyblue", ⟨135, 206, 250⟩), ("lightslategray", ⟨119, 136, 153⟩),
    ("lightslategrey", ⟨119, 136, 153⟩), ("lightsteelblue", ⟨176, 196, 222⟩),
    ("lightyellow", ⟨255, 255, 224⟩), ("lime", ⟨0, 255, 0⟩), ("limegreen", ⟨50, 205, 50⟩),
    ("linen", ⟨250, 240, 230⟩), ("magenta", ⟨255, 0, 255⟩), ("maroon", ⟨128, 0, 0⟩),
    ("mediumaquamarine", ⟨102, 205, 170⟩), ("mediumblue", ⟨0, 0, 205⟩),
    ("mediumorchid", ⟨186, 85, 211⟩), ("mediumpurple", ⟨147, 112, 219⟩),
    ("mediumseagreen", ⟨60, 179, 113⟩), ("mediumslateblue", ⟨123, 104, 238⟩),
    ("mediumspringgreen", ⟨0, 250, 154⟩), ("mediumturquoise", ⟨72, 209, 204⟩),
    ("mediumvioletred", ⟨199, 21, 133⟩), ("midnightblue", ⟨25, 25, 112⟩),
    ("mintcream", ⟨245, 255, 250⟩), ("mistyrose", ⟨255, 228, 225⟩), ("moccasin", ⟨255, 228, 181⟩),
    ("navajowhite", ⟨255, 222, 173⟩), ("navy", ⟨0, 0, 128⟩), ("oldlace", ⟨253, 245, 230⟩),
    ("olive", ⟨128, 128, 0⟩), ("olivedrab", ⟨107, 142, 35⟩), ("orange", ⟨255, 165, 0⟩),
    ("orangered", ⟨255, 69, 0⟩), ("orchid", ⟨218, 112, 214⟩), ("palegoldenrod", ⟨238, 232, 170⟩),
    ("palegreen", ⟨152, 251, 152⟩), ("paleturquoise", ⟨175, 238, 238⟩),
    ("palevioletred", ⟨219, 112, 147⟩), ("papayawhip", ⟨255, 239, 213⟩),
    ("peachpuff", ⟨255, 218, 185⟩), ("peru", ⟨205, 133, 63⟩), ("pink", ⟨255, 192, 203⟩),
    ("plum", ⟨221, 160, 221⟩), ("powderblue", ⟨176, 224, 230⟩), ("purple", ⟨128, 0, 128⟩),
    ("red", ⟨255, 0, 0⟩), ("rosybrown", ⟨188, 143, 143⟩), ("royalblue", ⟨65, 105, 225⟩),
    ("saddlebrown", ⟨139, 69, 19⟩), ("salmon", ⟨250, 128, 114⟩), ("sandybrown", ⟨244, 164, 96⟩),
    ("seagreen", ⟨46, 139, 87⟩), ("seashell", ⟨255, 245, 238⟩), ("sienna", ⟨160, 82, 45⟩),
    ("silver", ⟨192, 192, 192⟩), ("skyblue", ⟨135, 206, 235⟩), ("slateblue", ⟨106, 90, 205⟩),
    ("slategray", ⟨112, 128, 144⟩), ("slategrey", ⟨112, 128, 144⟩), ("snow", ⟨255, 250, 250⟩),
    ("springgreen", ⟨0, 255, 127⟩), ("steelblue", ⟨70, 130, 180⟩), ("tan", ⟨210, 180, 140⟩),
    ("teal", ⟨0, 128, 128⟩), ("thistle", ⟨216, 191, 216⟩), ("tomato", ⟨255, 99, 71⟩),
    ("turquoise", ⟨64, 224, 208⟩), ("violet", ⟨238, 130, 238⟩), ("wheat", ⟨245, 222, 179⟩),
    ("white", ⟨255, 255, 255⟩), ("whitesmoke", ⟨245, 245, 245⟩), ("yellow", ⟨255, 255, 0⟩),
    ("yellowgreen", ⟨154, 205, 50⟩)]

/-- The name of the fourth level. -/
def rebeccapurple : String × Rgb := ("rebeccapurple", ⟨102, 51, 153⟩)

/-- The color a name in lower case stands for. -/
def rgb? (name : String) : Option Rgb := (rebeccapurple :: level3).lookup name

/-- The color a name in any case stands for. -/
def lookup? (name : String) : Option Rgb := rgb? (String.ofList (Text.lower name.toList))

/-- The names of the third level that colors go by, under the digits of the color. -/
def byDigits : List (String × String) := [
    ("000000", "black"), ("000080", "navy"), ("00008b", "darkblue"), ("0000cd", "mediumblue"),
    ("0000ff", "blue"), ("006400", "darkgreen"), ("008000", "green"), ("008080", "teal"),
    ("008b8b", "darkcyan"), ("00bfff", "deepskyblue"), ("00ced1", "darkturquoise"),
    ("00fa9a", "mediumspringgreen"), ("00ff00", "lime"), ("00ff7f", "springgreen"),
    ("00ffff", "cyan"), ("191970", "midnightblue"), ("1e90ff", "dodgerblue"),
    ("20b2aa", "lightseagreen"), ("228b22", "forestgreen"), ("2e8b57", "seagreen"),
    ("2f4f4f", "darkslategrey"), ("32cd32", "limegreen"), ("3cb371", "mediumseagreen"),
    ("40e0d0", "turquoise"), ("4169e1", "royalblue"), ("4682b4", "steelblue"),
    ("483d8b", "darkslateblue"), ("48d1cc", "mediumturquoise"), ("4b0082", "indigo"),
    ("556b2f", "darkolivegreen"), ("5f9ea0", "cadetblue"), ("6495ed", "cornflowerblue"),
    ("66cdaa", "mediumaquamarine"), ("696969", "dimgrey"), ("6a5acd", "slateblue"),
    ("6b8e23", "olivedrab"), ("708090", "slategrey"), ("778899", "lightslategrey"),
    ("7b68ee", "mediumslateblue"), ("7cfc00", "lawngreen"), ("7fff00", "chartreuse"),
    ("7fffd4", "aquamarine"), ("800000", "maroon"), ("800080", "purple"), ("808000", "olive"),
    ("808080", "grey"), ("87ceeb", "skyblue"), ("87cefa", "lightskyblue"), ("8a2be2", "blueviolet"),
    ("8b0000", "darkred"), ("8b008b", "darkmagenta"), ("8b4513", "saddlebrown"),
    ("8fbc8f", "darkseagreen"), ("90ee90", "lightgreen"), ("9370db", "mediumpurple"),
    ("9400d3", "darkviolet"), ("98fb98", "palegreen"), ("9932cc", "darkorchid"),
    ("9acd32", "yellowgreen"), ("a0522d", "sienna"), ("a52a2a", "brown"), ("a9a9a9", "darkgrey"),
    ("add8e6", "lightblue"), ("adff2f", "greenyellow"), ("afeeee", "paleturquoise"),
    ("b0c4de", "lightsteelblue"), ("b0e0e6", "powderblue"), ("b22222", "firebrick"),
    ("b8860b", "darkgoldenrod"), ("ba55d3", "mediumorchid"), ("bc8f8f", "rosybrown"),
    ("bdb76b", "darkkhaki"), ("c0c0c0", "silver"), ("c71585", "mediumvioletred"),
    ("cd5c5c", "indianred"), ("cd853f", "peru"), ("d2691e", "chocolate"), ("d2b48c", "tan"),
    ("d3d3d3", "lightgrey"), ("d8bfd8", "thistle"), ("da70d6", "orchid"), ("daa520", "goldenrod"),
    ("db7093", "palevioletred"), ("dc143c", "crimson"), ("dcdcdc", "gainsboro"), ("dda0dd", "plum"),
    ("deb887", "burlywood"), ("e0ffff", "lightcyan"), ("e6e6fa", "lavender"),
    ("e9967a", "darksalmon"), ("ee82ee", "violet"), ("eee8aa", "palegoldenrod"),
    ("f08080", "lightcoral"), ("f0e68c", "khaki"), ("f0f8ff", "aliceblue"), ("f0fff0", "honeydew"),
    ("f0ffff", "azure"), ("f4a460", "sandybrown"), ("f5deb3", "wheat"), ("f5f5dc", "beige"),
    ("f5f5f5", "whitesmoke"), ("f5fffa", "mintcream"), ("f8f8ff", "ghostwhite"),
    ("fa8072", "salmon"), ("faebd7", "antiquewhite"), ("faf0e6", "linen"),
    ("fafad2", "lightgoldenrodyellow"), ("fdf5e6", "oldlace"), ("ff0000", "red"),
    ("ff00ff", "magenta"), ("ff1493", "deeppink"), ("ff4500", "orangered"), ("ff6347", "tomato"),
    ("ff69b4", "hotpink"), ("ff7f50", "coral"), ("ff8c00", "darkorange"), ("ffa07a", "lightsalmon"),
    ("ffa500", "orange"), ("ffb6c1", "lightpink"), ("ffc0cb", "pink"), ("ffd700", "gold"),
    ("ffdab9", "peachpuff"), ("ffdead", "navajowhite"), ("ffe4b5", "moccasin"),
    ("ffe4c4", "bisque"), ("ffe4e1", "mistyrose"), ("ffebcd", "blanchedalmond"),
    ("ffefd5", "papayawhip"), ("fff0f5", "lavenderblush"), ("fff5ee", "seashell"),
    ("fff8dc", "cornsilk"), ("fffacd", "lemonchiffon"), ("fffaf0", "floralwhite"),
    ("fffafa", "snow"), ("ffff00", "yellow"), ("ffffe0", "lightyellow"), ("fffff0", "ivory"),
    ("ffffff", "white")]

/-- The name of the third level that a color goes by. -/
def level3Name? (c : Rgb) : Option String := byDigits.lookup c.digits

end CssColor.Keyword
