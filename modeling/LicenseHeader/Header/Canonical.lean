import LicenseHeader.Style

/-!
# The canonical headers

The text that every file of a style has to start with. Each header is one whole comment of its style
and the blank line after it.
-/

namespace LicenseHeader

/-- The canonical header of the block style. -/
def blockHeader : String :=
  "/*\n" ++
  " * SPDX-License-Identifier: Apache-2.0\n" ++
  " *\n" ++
  " * This file is part of hdrsync\n" ++
  " *\n" ++
  " * Copyright (C) 2026 The hdrsync Authors\n" ++
  " */\n" ++
  "\n"

/-- The canonical header of the sharp style. -/
def sharpHeader : String :=
  "# SPDX-License-Identifier: Apache-2.0\n" ++
  "#\n" ++
  "# This file is part of hdrsync\n" ++
  "#\n" ++
  "# Copyright (C) 2026 The hdrsync Authors\n" ++
  "\n"

/-- The header that every file of a style starts with. -/
def Style.header : Style → Text
  | .block => blockHeader.toList
  | .sharp => sharpHeader.toList

end LicenseHeader
